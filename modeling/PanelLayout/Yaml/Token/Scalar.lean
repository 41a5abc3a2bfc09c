import PanelLayout.Yaml.Cursor

/-!
# Scalars as they are written

The five styles of scalar: plain, single quoted, double quoted, literal and folded.  Each reader
walks the text once, character by character, and gives the scalar's content and the place behind
it, or nothing when the text breaks a rule of the style.

Plain and quoted scalars fold their line breaks: a single break between two words becomes a
space, and of several breaks the first is dropped.
-/

namespace PanelLayout.Yaml

/-! ## §1 Folding -/

/-- What has been read between two words of a plain or quoted scalar.  `broken` says that a line
break has been met; spaces count only before it.  The two lists are newest first. -/
structure Gap where
  blanks : List Char
  broken : Bool
  first : Option Char
  more : List Char

def Gap.none : Gap := ⟨[], false, .none, []⟩

/-- A gap behind an escaped line break, which leaves nothing of itself. -/
def Gap.escapedBreak : Gap := ⟨[], true, .none, []⟩

/-- Has anything been read between the two words? -/
def Gap.isNone (gap : Gap) : Bool := !gap.broken && gap.blanks.isEmpty

/-- The gap with one more space, tab or line break. -/
def Gap.push (gap : Gap) (c : Char) : Gap :=
  if isBreak c then
    if gap.broken then { gap with more := c :: gap.more } else ⟨[], true, some c, gap.more⟩
  else if gap.broken then gap
  else { gap with blanks := c :: gap.blanks }

/-- What a gap leaves in the content, newest first. -/
def Gap.fold (gap : Gap) : List Char :=
  if !gap.broken then gap.blanks
  else
    match gap.first with
    | some '\n' => if gap.more.isEmpty then [' '] else gap.more
    | some c => gap.more ++ [c]
    | .none => gap.more

/-! ## §2 Plain scalars -/

/-- A scalar that has been read, and whether a line break was read behind its last word. -/
structure ReadScalar where
  text : String
  cursor : Cursor
  broken : Bool

def isFlowIndicator (c : Char) : Bool := c = ',' || c = '[' || c = ']' || c = '\x7b' || c = '\x7d'

/-- Does a plain scalar end before `c`, when `rest` follows and `gap` has been read?  In block
context a line indented less than `indent` ends it. -/
def endsPlain (flow : Bool) (indent : Int) (pos : Position) (gap : Gap) (c : Char)
    (rest : List Char) : Bool :=
  let afterGap := !gap.isNone &&
    ((!flow && pos.column < indent) || (pos.column = 0 && startsAnyMarker (c :: rest)) || c = '#')
  afterGap || (c = ':' && endsWord rest) || (flow && isFlowIndicator c)

/-- Does `c` begin what no plain scalar of a flow collection may hold: a colon before an
indicator? -/
def spoilsPlain (flow : Bool) (c : Char) (rest : List Char) : Bool :=
  flow && c = ':' && rest.head?.any fun d => isFlowIndicator d || d = '?'

/-- Reads a plain scalar.  `text` is the content so far, newest first. -/
def plainScalar? (flow : Bool) (indent : Int) (pos : Position) (text : List Char) (gap : Gap) :
    List Char → Option ReadScalar
  | [] => some ⟨String.ofList text.reverse, ⟨pos, []⟩, gap.broken⟩
  | c :: rest =>
    if isGap c || isBreak c then
      -- A tab cannot stand in the indentation of a continued line.
      if gap.broken && c = '\t' && pos.column < indent then none
      else plainScalar? flow indent (pos.after c) text (gap.push c) rest
    else if endsPlain flow indent pos gap c rest then
      some ⟨String.ofList text.reverse, ⟨pos, c :: rest⟩, gap.broken⟩
    else if spoilsPlain flow c rest then none
    else plainScalar? flow indent (pos.after c) (c :: (gap.fold ++ text)) Gap.none rest

/-! ## §3 Quoted scalars -/

/-- The character that a one-letter escape stands for. -/
def simpleEscape? : Char → Option Char
  | '0' => some '\x00'
  | 'a' => some '\x07'
  | 'b' => some '\x08'
  | 't' => some '\t'
  | '\t' => some '\t'
  | 'n' => some '\n'
  | 'v' => some '\x0b'
  | 'f' => some '\x0c'
  | 'r' => some '\r'
  | 'e' => some '\x1b'
  | ' ' => some ' '
  | '\x22' => some '\x22'
  | '/' => some '/'
  | '\\' => some '\\'
  | 'N' => some '\u0085'
  | '_' => some '\u00a0'
  | 'L' => some '\u2028'
  | 'P' => some '\u2029'
  | _ => none

/-- How many hexadecimal digits follow the letter of a numeric escape. -/
def escapeLength? : Char → Option Nat
  | 'x' => some 2
  | 'u' => some 4
  | 'U' => some 8
  | _ => none

/-- The character with this code point, if there is one. -/
def charOf? (n : Nat) : Option Char := if n.isValidChar then some (Char.ofNat n) else none

/-- A numeric escape that is being read: the digits still to come and the value so far. -/
structure Escape where
  remaining : Nat
  value : Nat

def singleQuoted? (pos : Position) (text : List Char) (gap : Gap) :
    List Char → Option (String × Cursor)
  | [] => none
  | c :: rest =>
    if isGap c || isBreak c then singleQuoted? (pos.after c) text (gap.push c) rest
    else if pos.column = 0 && startsAnyMarker (c :: rest) then none
    else
      let text := gap.fold ++ text
      if c = '\x27' then
        match rest with
        | '\x27' :: rest =>
          singleQuoted? ((pos.after c).after c) (c :: text) Gap.none rest
        | _ => some (String.ofList text.reverse, ⟨pos.after c, rest⟩)
      else singleQuoted? (pos.after c) (c :: text) Gap.none rest

/-- Reads a double-quoted scalar behind its opening quote.  `escape` is the numeric escape that
is being read, if any. -/
def doubleQuoted? (pos : Position) (text : List Char) (gap : Gap) (escape : Option Escape) :
    List Char → Option (String × Cursor)
  | [] => none
  | c :: rest =>
    match escape with
    | some ⟨remaining, value⟩ =>
      match Literal.digit? c with
      | none => none
      | some d =>
        let value := value * 16 + d
        if 1 < remaining then
          doubleQuoted? (pos.after c) text gap (some ⟨remaining - 1, value⟩) rest
        else
          match charOf? value with
          | none => none
          | some e => doubleQuoted? (pos.after c) (e :: text) gap none rest
    | none =>
      if isGap c || isBreak c then doubleQuoted? (pos.after c) text (gap.push c) none rest
      else if pos.column = 0 && startsAnyMarker (c :: rest) then none
      else
        let text := gap.fold ++ text
        if c = '\x22' then some (String.ofList text.reverse, ⟨pos.after c, rest⟩)
        else if c = '\\' then
          match rest with
          | [] => none
          | d :: rest =>
            let pos := (pos.after c).after d
            -- An escaped break joins the lines without a space.
            if isBreak d then doubleQuoted? pos text Gap.escapedBreak none rest
            else
              match simpleEscape? d, escapeLength? d with
              | some e, _ => doubleQuoted? pos (e :: text) Gap.none none rest
              | none, some length => doubleQuoted? pos text Gap.none (some ⟨length, 0⟩) rest
              | none, none => none
        else doubleQuoted? (pos.after c) (c :: text) Gap.none none rest

/-! ## §4 Block scalars -/

/-- What becomes of the line breaks at the end of a block scalar. -/
inductive Chomping where
  | strip
  | clip
  | keep
  deriving DecidableEq, Repr

/-- The chomping that an indicator asks for. -/
def chomping? : Char → Option Chomping
  | '+' => some .keep
  | '-' => some .strip
  | _ => none

def isIndentDigit (c : Char) : Bool := '1' ≤ c && c ≤ '9'

/-- The header of a block scalar behind its indicator: chomping and explicit indentation in
either order, then the rest of the line. -/
def blockHeader? (cur : Cursor) : Option (Chomping × Option Nat × Cursor) :=
  let digit (c : Char) : Nat := c.toNat - '0'.toNat
  let (chomp, increment, cur) : Chomping × Option Nat × Cursor :=
    match cur.rest with
    | c :: d :: _ =>
      match chomping? c, chomping? d with
      | some chomp, _ =>
        if isIndentDigit d then (chomp, some (digit d), cur.skip.skip)
        else (chomp, none, cur.skip)
      | none, some chomp =>
        if isIndentDigit c then (chomp, some (digit c), cur.skip.skip) else (.clip, none, cur)
      | none, none =>
        if isIndentDigit c then (.clip, some (digit c), cur.skip) else (.clip, none, cur)
    | [c] =>
      match chomping? c with
      | some chomp => (chomp, none, cur.skip)
      | none => if isIndentDigit c then (.clip, some (digit c), cur.skip) else (.clip, none, cur)
    | [] => (.clip, none, cur)
  cur.finishLine?.map fun cur => (chomp, increment, cur)

/-- The state of a block scalar: `indent` is zero until it is known; `lead` is the break behind
the last line and `breaks` those of the empty lines since, newest first. -/
structure Block where
  indent : Nat
  text : List Char
  lead : Option Char
  breaks : List Char
  leadBlank : Bool

/-- Begins a line of content with its first character.  A folded scalar joins two lines that both
begin without a blank. -/
def Block.startLine (block : Block) (folded : Bool) (c : Char) : Block :=
  let blank := isGap c
  let joined :=
    if folded && block.lead = some '\n' && !block.leadBlank && !blank then
      if block.breaks.isEmpty then ' ' :: block.text else block.text
    else block.lead.toList ++ block.text
  { block with
    text := c :: (block.breaks ++ joined), lead := none, breaks := [], leadBlank := blank }

/-- The content of a finished block scalar. -/
def Block.finish (block : Block) (chomp : Chomping) : String :=
  let text := match chomp with
    | .strip => block.text
    | .clip => block.lead.toList ++ block.text
    | .keep => block.breaks ++ (block.lead.toList ++ block.text)
  String.ofList text.reverse

/-- Where a block scalar is being read: in the margin of a line, with the deepest margin so far,
or inside a line. -/
inductive BlockPlace where
  | margin (deepest : Nat)
  | line

/-- Reads the lines of a block scalar.  Its indentation, when not given, is that of its deepest
leading line, and at least `least`. -/
def blockLines? (folded : Bool) (chomp : Chomping) (least : Nat) (pos : Position) (block : Block)
    (place : BlockPlace) : List Char → Option (String × Cursor)
  | [] => some (block.finish chomp, ⟨pos, []⟩)
  | c :: rest =>
    match place with
    | .line =>
      if isBreak c then
        blockLines? folded chomp least (pos.after c) { block with lead := some c } (.margin 0) rest
      else
        blockLines? folded chomp least (pos.after c) { block with text := c :: block.text } .line
          rest
    | .margin deepest =>
      let inMargin := block.indent = 0 || pos.column < block.indent
      if inMargin && c = ' ' then
        blockLines? folded chomp least (pos.after c) block (.margin deepest) rest
      else
        let deepest := max deepest pos.column
        -- A tab cannot indent.
        if inMargin && c = '\t' then none
        else if isBreak c then
          blockLines? folded chomp least (pos.after c) { block with breaks := c :: block.breaks }
            (.margin deepest) rest
        else
          -- The first line with content fixes the indentation; a line off it ends the scalar.
          let indent := if block.indent = 0 then max deepest least else block.indent
          if pos.column = indent then
            blockLines? folded chomp least (pos.after c)
              ({ block with indent := indent }.startLine folded c) .line rest
          else some (block.finish chomp, ⟨pos, c :: rest⟩)

/-- Reads a block scalar behind its indicator, inside a collection indented by `indent`. -/
def blockScalar? (folded : Bool) (indent : Int) (cur : Cursor) : Option (String × Cursor) := do
  let (chomp, increment, cur) ← blockHeader? cur
  let fixed := match increment with
    | some n => if 0 ≤ indent then indent.toNat + n else n
    | none => 0
  let least := max (indent + 1).toNat 1
  blockLines? folded chomp least cur.position ⟨fixed, [], none, [], false⟩ (.margin 0) cur.rest

end PanelLayout.Yaml
