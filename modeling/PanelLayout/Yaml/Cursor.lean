import PanelLayout.Numeric.Literal

/-!
# Characters and places of a YAML text

A text is read as a list of characters in which every line break is one character: the four
breaks that mean the same (`LF`, `CR`, `CR LF` and the next-line control) become `LF`, while the
line and paragraph separators stay themselves.

A `Cursor` is a place in such a text: the characters still to be read and the position of the
first of them.
-/

namespace PanelLayout.Yaml

/-! ## §1 Character classes -/

/-- The characters that a YAML text may hold. -/
def isReadable (c : Char) : Bool :=
  let n := c.toNat
  n = 0x09 || n = 0x0A || n = 0x0D || (0x20 ≤ n && n ≤ 0x7E) || n = 0x85 ||
  (0xA0 ≤ n && n ≤ 0xD7FF) || (0xE000 ≤ n && n ≤ 0xFFFD) || 0x10000 ≤ n

/-- How many octets of a text are taken in at a time. -/
def blockSize : Nat := 16384

/-- The blocks before the first that holds an unreadable character.  A block holds as many
characters as fit.  `done` and `block` are what has been taken in of the blocks before this one
and of this one, newest first, and `used` counts the octets of this one. -/
def soundBlocks (done block : List Char) (used : Nat) : List Char → List Char
  | [] => (block ++ done).reverse
  | c :: rest =>
    if used + c.utf8Size ≤ blockSize then
      if isReadable c then soundBlocks done (c :: block) (used + c.utf8Size) rest else done.reverse
    else if isReadable c then soundBlocks (block ++ done) [c] c.utf8Size rest
    else (block ++ done).reverse

/-- The text with one character for each line break. -/
def normalizeBreaks : List Char → List Char
  | [] => []
  | '\r' :: '\n' :: rest => '\n' :: normalizeBreaks rest
  | '\r' :: rest => '\n' :: normalizeBreaks rest
  | '\u0085' :: rest => '\n' :: normalizeBreaks rest
  | c :: rest => c :: normalizeBreaks rest

def isBreak (c : Char) : Bool := c = '\n' || c = '\u2028' || c = '\u2029'

/-- A space or a tab. -/
def isGap (c : Char) : Bool := c = ' ' || c = '\t'

/-- The characters of anchors, tag handles and directive names. -/
def isWord (c : Char) : Bool := c.isAlphanum || c = '_' || c = '-'

/-- Does the text end here, or go on with a space, a tab or a line break? -/
def endsWord : List Char → Bool
  | [] => true
  | c :: _ => isGap c || isBreak c

/-- Does the text end here, or go on with a line break? -/
def endsLine : List Char → Bool
  | [] => true
  | c :: _ => isBreak c

/-- Does a document marker, `---` or `...`, stand here? -/
def startsMarker (marker : Char) : List Char → Bool
  | a :: b :: c :: rest => a = marker && b = marker && c = marker && endsWord rest
  | _ => false

def startsAnyMarker (cs : List Char) : Bool := startsMarker '-' cs || startsMarker '.' cs

/-! ## §2 Positions and cursors -/

/-- A position in the text, counted from zero: the index in octets, with one for a line break
however it was written, and the column in characters. -/
structure Position where
  index : Nat
  line : Nat
  column : Nat
  deriving DecidableEq, Repr

def Position.start : Position := ⟨0, 0, 0⟩

/-- The position behind a character. -/
def Position.after (p : Position) (c : Char) : Position :=
  if isBreak c then ⟨p.index + c.utf8Size, p.line + 1, 0⟩
  else ⟨p.index + c.utf8Size, p.line, p.column + 1⟩

/-- A place in a text: a position and what stands from there on. -/
structure Cursor where
  position : Position
  rest : List Char

/-- One character further on; the end of the text stays the end. -/
def Cursor.skip (cur : Cursor) : Cursor :=
  match cur.rest with
  | [] => cur
  | c :: rest => ⟨cur.position.after c, rest⟩

def Cursor.skipMany : Nat → Cursor → Cursor
  | 0, cur => cur
  | n + 1, cur => skipMany n cur.skip

/-- Past the characters of a class. -/
def Cursor.skipWhile (p : Char → Bool) (cur : Cursor) : Cursor :=
  go cur.position cur.rest
where
  /-- The walk over the text that remains. -/
  go (pos : Position) : List Char → Cursor
    | [] => ⟨pos, []⟩
    | c :: rest => if p c then go (pos.after c) rest else ⟨pos, c :: rest⟩

/-- The run of characters of a class, and the place behind it. -/
def Cursor.span (p : Char → Bool) (cur : Cursor) : List Char × Cursor :=
  (cur.rest.takeWhile p, cur.skipWhile p)

/-- The rest of a line that may hold a comment and nothing else, up to its line break. -/
def Cursor.finishLine? (cur : Cursor) : Option Cursor :=
  let cur := cur.skipWhile isGap
  let cur := match cur.rest with
    | '#' :: _ => cur.skipWhile (!isBreak ·)
    | _ => cur
  if endsLine cur.rest then some cur.skip else none

end PanelLayout.Yaml
