import PanelLayout.Yaml.Token
import PanelLayout.Yaml.Token.Property
import PanelLayout.Yaml.Token.Scalar

/-!
# From text to tokens

A mapping key needs no indicator of its own: that a scalar or a flow collection is a key is
known only when the `:` behind it is met.  Until then the place before it is a `Candidate`, and
the tokens from there on wait; when the `:` comes, the key indicator is put in front of them, and
before it the start of a block mapping if the key is indented deeper than what surrounds it.
A candidate lapses at the end of its line and after 1024 octets.

A token is handed on as soon as no candidate can put anything before it.  `Token.scan` gives the
tokens that are handed on before the text breaks a rule, if it does.
-/

namespace PanelLayout.Yaml

/-! ## §1 The state -/

/-- A place where a key indicator may still have to be put: before the token of that number. -/
structure Candidate where
  required : Bool
  number : Nat
  position : Position

/-- The state of reading.  `indent` is the column of the innermost block collection, `-1` outside
of all; `outer` holds those around it.  Every flow collection has a slot for one candidate: the
innermost is `candidate`, those around it are `outerCandidates`.  When the text is not `complete`,
its end cannot be read past. -/
structure Lexer where
  complete : Bool
  cursor : Cursor
  released : Nat
  waiting : List Token
  indent : Int
  outer : List Int
  keyAllowed : Bool
  candidate : Option Candidate
  outerCandidates : List (Option Candidate)
  ended : Bool

namespace Lexer

def start (complete : Bool) (cs : List Char) : Lexer :=
  ⟨complete, ⟨.start, cs⟩, 0, [], -1, [], true, none, [], false⟩

def inFlow (lx : Lexer) : Bool := !lx.outerCandidates.isEmpty

def column (lx : Lexer) : Nat := lx.cursor.position.column

def push (token : Token) (lx : Lexer) : Lexer := { lx with waiting := lx.waiting ++ [token] }

/-- Puts a token before the token of that number. -/
def insert (number : Nat) (token : Token) (lx : Lexer) : Lexer :=
  { lx with waiting := lx.waiting.insertIdx (number - lx.released) token }

/-- Goes on behind a token. -/
def pushAt (token : Token) (cur : Cursor) (lx : Lexer) : Lexer :=
  { lx with waiting := lx.waiting ++ [token], cursor := cur }

/-! ## §2 Candidates -/

/-- Has the candidate lapsed at this position? -/
def lapsed (pos : Position) (candidate : Candidate) : Bool :=
  candidate.position.line < pos.line || candidate.position.index + 1024 < pos.index

/-- Drops a candidate that has lapsed; a required one must not lapse. -/
def refresh? (pos : Position) : Option Candidate → Option (Option Candidate)
  | none => some none
  | some candidate =>
    if lapsed pos candidate then if candidate.required then none else some none
    else some (some candidate)

/-- Drops every candidate that has lapsed. -/
def dropLapsed? (lx : Lexer) : Option Lexer := do
  let candidate ← refresh? lx.cursor.position lx.candidate
  let outer ← lx.outerCandidates.mapM (refresh? lx.cursor.position)
  some { lx with candidate := candidate, outerCandidates := outer }

/-- Gives up the innermost candidate; a required one must not be given up. -/
def dropCandidate? (lx : Lexer) : Option Lexer :=
  match lx.candidate with
  | some candidate => if candidate.required then none else some { lx with candidate := none }
  | none => some lx

/-- Notes the next token as one before which a key indicator may have to be put. -/
def noteCandidate? (lx : Lexer) : Option Lexer :=
  if lx.keyAllowed then
    let required := !lx.inFlow && lx.indent = lx.column
    (dropCandidate? lx).map fun lx =>
      { lx with
        candidate := some ⟨required, lx.released + lx.waiting.length, lx.cursor.position⟩ }
  else some lx

/-! ## §3 Indentation -/

/-- Closes every block collection that is indented deeper than `column`. -/
def unindent (column : Int) (lx : Lexer) : Lexer :=
  if lx.inFlow then lx
  else
    -- The columns decrease outwards, so the collections to close stand in front.
    let (deeper, outer) := (lx.indent :: lx.outer).span (column < ·)
    { lx with
      waiting := lx.waiting ++ List.replicate deeper.length .blockEnd
      indent := outer.head?.getD (-1)
      outer := outer.drop 1 }

/-- Opens a block collection at `column` if that is deeper than what surrounds it. -/
def indentTo (column : Nat) (add : Lexer → Lexer) (lx : Lexer) : Lexer :=
  if !lx.inFlow && lx.indent < column then
    add { lx with indent := column, outer := lx.indent :: lx.outer }
  else lx

/-! ## §4 One token -/

/-- Goes past blanks, comments and line breaks to the next token.  Tabs count as blanks in flow
context and where no key may start.  A byte-order mark may begin a line.  In block context a new
line lets a key start again. -/
def toNextToken (flow comment keyAllowed : Bool) (pos : Position) : List Char → Cursor × Bool
  | [] => (⟨pos, []⟩, keyAllowed)
  | c :: rest =>
    if isBreak c then toNextToken flow false (!flow || keyAllowed) (pos.after c) rest
    else if comment || c = ' ' || (c = '\ufeff' && pos.column = 0) ||
        (c = '\t' && (flow || !keyAllowed)) then
      toNextToken flow comment keyAllowed (pos.after c) rest
    else if c = '#' then toNextToken flow true keyAllowed (pos.after c) rest
    else (⟨pos, c :: rest⟩, keyAllowed)

/-- The end of the text closes every block collection, and the last line with them. -/
def atEnd? (lx : Lexer) : Option Lexer := do
  let pos := lx.cursor.position
  -- A last line without a break ends here all the same, and its candidate lapses with it.
  let pos := if pos.column = 0 then pos else ⟨pos.index, pos.line + 1, 0⟩
  let lx ← (lx.unindent (-1)).dropCandidate?
  some { lx.pushAt .streamEnd ⟨pos, []⟩ with keyAllowed := false, ended := true }

/-- A directive or a document marker closes every block collection too. -/
def atMargin? (token : Token) (cur : Cursor) (lx : Lexer) : Option Lexer := do
  let lx ← (lx.unindent (-1)).dropCandidate?
  some { lx.pushAt token cur with keyAllowed := false }

/-- A flow collection opens; it may be a key, and its first entry may be one. -/
def openFlow? (token : Token) (lx : Lexer) : Option Lexer := do
  let lx ← lx.noteCandidate?
  some { lx.pushAt token lx.cursor.skip with
    keyAllowed := true, candidate := none,
    outerCandidates := lx.candidate :: lx.outerCandidates }

def closeFlow? (token : Token) (lx : Lexer) : Option Lexer := do
  let lx ← lx.dropCandidate?
  let lx := { lx.pushAt token lx.cursor.skip with keyAllowed := false }
  match lx.outerCandidates with
  | [] => some lx
  | candidate :: outer => some { lx with candidate := candidate, outerCandidates := outer }

def flowEntry? (lx : Lexer) : Option Lexer := do
  let lx ← lx.dropCandidate?
  some { lx.pushAt .flowEntry lx.cursor.skip with keyAllowed := true }

def blockEntry? (lx : Lexer) : Option Lexer := do
  if !lx.inFlow && !lx.keyAllowed then none
  else
    let lx ← (lx.indentTo lx.column (push .blockSequenceStart)).dropCandidate?
    some { lx.pushAt .blockEntry lx.cursor.skip with keyAllowed := true }

def explicitKey? (lx : Lexer) : Option Lexer := do
  if !lx.inFlow && !lx.keyAllowed then none
  else
    let lx ← (lx.indentTo lx.column (push .blockMappingStart)).dropCandidate?
    some { lx.pushAt .key lx.cursor.skip with keyAllowed := !lx.inFlow }

/-- The colon before a value.  It turns the candidate into a key. -/
def value? (lx : Lexer) : Option Lexer :=
  match lx.candidate with
  | some candidate =>
    -- The mapping's start is put in after the key indicator, at the same number, so it comes first.
    let lx := lx.insert candidate.number .key
    let lx := lx.indentTo candidate.position.column (insert candidate.number .blockMappingStart)
    some { lx.pushAt .value lx.cursor.skip with keyAllowed := false, candidate := none }
  | none =>
    if !lx.inFlow && !lx.keyAllowed then none
    else
      let lx := lx.indentTo lx.column (push .blockMappingStart)
      some { lx.pushAt .value lx.cursor.skip with keyAllowed := !lx.inFlow }

/-- An anchor, alias, tag or quoted scalar, read by `read`; it may begin a key. -/
def decoration? (read : Cursor → Option (Token × Cursor)) (lx : Lexer) : Option Lexer := do
  let lx ← lx.noteCandidate?
  let (token, cur) ← read lx.cursor
  some { lx.pushAt token cur with keyAllowed := false }

/-- A plain scalar.  When it spans lines, a key may start behind it. -/
def plain? (lx : Lexer) : Option Lexer := do
  let lx ← lx.noteCandidate?
  let cur := lx.cursor
  let scalar ← plainScalar? lx.inFlow (lx.indent + 1) cur.position [] Gap.none cur.rest
  some { lx.pushAt (.scalar .plain scalar.text) scalar.cursor with keyAllowed := scalar.broken }

/-- A literal or folded scalar. -/
def block? (folded : Bool) (lx : Lexer) : Option Lexer := do
  let lx ← lx.dropCandidate?
  let (text, cur) ← blockScalar? folded lx.indent lx.cursor.skip
  some { lx.pushAt (.scalar (if folded then .folded else .literal) text) cur with
    keyAllowed := true }

/-- The characters with which no plain scalar begins, whatever follows. -/
def isReserved (c : Char) : Bool :=
  isGap c || isFlowIndicator c || c = '#' || c = '&' || c = '*' || c = '!' || c = '|' || c = '>' ||
  c = '\x27' || c = '\x22' || c = '%' || c = '@' || c = '\x60'

/-- May a plain scalar begin with `c`, when `rest` follows? -/
def startsPlain (flow : Bool) (c : Char) (rest : List Char) : Bool :=
  if c = '-' then !rest.head?.any isGap
  else if c = '?' || c = ':' then !flow && !endsWord rest
  else !isReserved c

/-- Reads the token that begins with `c`. -/
def token? (c : Char) (rest : List Char) (lx : Lexer) : Option Lexer :=
  let word (token : String → Token) (cur : Cursor) : Option (Token × Cursor) :=
    (anchorName? cur).map fun (name, cur) => (token name, cur)
  let quoted (style : Style) (read : Option (String × Cursor)) : Option (Token × Cursor) :=
    read.map fun (text, cur) => (.scalar style text, cur)
  if lx.column = 0 && c = '%' then
    (directive? lx.cursor).bind fun (token, cur) => lx.atMargin? token cur
  else if lx.column = 0 && startsMarker '-' (c :: rest) then
    lx.atMargin? .documentStart (lx.cursor.skipMany 3)
  else if lx.column = 0 && startsMarker '.' (c :: rest) then
    lx.atMargin? .documentEnd (lx.cursor.skipMany 3)
  else if c = '[' then lx.openFlow? .flowSequenceStart
  else if c = '\x7b' then lx.openFlow? .flowMappingStart
  else if c = ']' then lx.closeFlow? .flowSequenceEnd
  else if c = '\x7d' then lx.closeFlow? .flowMappingEnd
  else if c = ',' then lx.flowEntry?
  else if c = '-' && endsWord rest then lx.blockEntry?
  else if c = '?' && (lx.inFlow || endsWord rest) then lx.explicitKey?
  else if c = ':' && (lx.inFlow || endsWord rest) then lx.value?
  else if c = '*' then lx.decoration? (word .aliasOf)
  else if c = '&' then lx.decoration? (word .anchor)
  else if c = '!' then lx.decoration? (tag? lx.inFlow)
  else if c = '|' && !lx.inFlow then lx.block? false
  else if c = '>' && !lx.inFlow then lx.block? true
  else if c = '\x27' then
    lx.decoration? fun cur =>
      quoted .singleQuoted (singleQuoted? cur.skip.position [] Gap.none cur.skip.rest)
  else if c = '\x22' then
    lx.decoration? fun cur =>
      quoted .doubleQuoted (doubleQuoted? cur.skip.position [] Gap.none none cur.skip.rest)
  else if startsPlain lx.inFlow c rest then lx.plain?
  else none

/-- Reads one more token, and the ends of the block collections before it. -/
def fetch? (lx : Lexer) : Option Lexer := do
  let (cur, keyAllowed) :=
    toNextToken lx.inFlow false lx.keyAllowed lx.cursor.position lx.cursor.rest
  let lx ← ({ lx with cursor := cur, keyAllowed := keyAllowed }).dropLapsed?
  -- Collections indented deeper than the token end before it.
  let lx := lx.unindent lx.column
  -- Four characters are looked at before a token is read, and one behind it.
  if !lx.complete && (cur.rest.drop 3).isEmpty then none
  else
    match cur.rest with
    | [] => lx.atEnd?
    | c :: rest => (lx.token? c rest).filter fun lx => lx.complete || !lx.cursor.rest.isEmpty

/-! ## §5 The stream -/

/-- The first token number before which something may still be put. -/
def barrier (lx : Lexer) : Option Nat :=
  ((lx.candidate :: lx.outerCandidates).filterMap fun slot => slot.map (·.number)).min?

/-- Hands on the tokens before which nothing can be put any more. -/
def release (lx : Lexer) : List Token × Lexer :=
  let count := match lx.barrier with
    | some number => min (number - lx.released) lx.waiting.length
    | none => lx.waiting.length
  (lx.waiting.take count,
    { lx with released := lx.released + count, waiting := lx.waiting.drop count })

/-- The tokens handed on from this state, newest first.  Every fetch reads at least one
character or ends the text, so `fuel` beyond the length of the text is never used up. -/
def run : Nat → Lexer → List Token → List Token
  | 0, _, tokens => tokens
  | fuel + 1, lx, tokens =>
    match lx.fetch? with
    | none => tokens
    | some lx =>
      -- A required key that has lapsed stops the reading before anything more is handed on.
      match lx.dropLapsed? with
      | none => tokens
      | some lx =>
        let (now, lx) := lx.release
        let tokens := now.reverse ++ tokens
        if lx.ended then tokens else run fuel lx tokens

end Lexer

/-- The tokens of a text, up to the place where it breaks a rule.  A text that keeps all of them
ends with `streamEnd`.  An unreadable character spoils its whole block, but not those before. -/
def Token.scan (text : List Char) : List Token :=
  let complete := text.all isReadable
  let cs := normalizeBreaks (if complete then text else soundBlocks [] [] 0 text)
  (Lexer.run (cs.length + 2) (Lexer.start complete cs) []).reverse

end PanelLayout.Yaml
