/-!
# Braces in expressions

An expression is a text in which `\x7b…\x7d` encloses a computed part.  A backslash makes braces
literal, in two ways that are kept apart:

* for the nesting depth a backslash takes the character behind it out of the text, whatever that
  is;
* for the segments a brace is literal when the character before it is a backslash.

A segment is the inside of an outermost pair of braces; in the text that is reported for it the
escaped operators stand for themselves.
-/

namespace PanelLayout.Expression

/-! ## §1 Depth -/

/-- The deepest nesting of a text that goes on from the given depth; `deepest` was reached
before.  A closing brace without an opening one changes nothing. -/
def depthFrom (depth deepest : Nat) : List Char → Nat
  | [] => deepest
  -- A backslash at the very end escapes nothing.
  | ['\\'] => deepest
  | '\\' :: _ :: rest => depthFrom depth deepest rest
  | '\x7b' :: rest => depthFrom (depth + 1) (max deepest (depth + 1)) rest
  | '\x7d' :: rest => depthFrom (depth - 1) deepest rest
  | _ :: rest => depthFrom depth deepest rest

def nestingDepth (s : String) : Nat := depthFrom 0 0 s.toList

/-! ## §2 Segments -/

/-- The insides of the outermost pairs of braces.  `before` is the character before the text,
`depth` the number of braces that are open, and `inside` what has been read since the outermost
of them, newest first. -/
def segmentsFrom (before : Option Char) (depth : Nat) (inside : List Char) :
    List Char → List (List Char)
  | [] => []
  | c :: rest =>
    let literal := before = some '\\'
    if c = '\x7b' ∧ ¬literal then
      segmentsFrom (some c) (depth + 1) (if depth = 0 then [] else c :: inside) rest
    else if c = '\x7d' ∧ ¬literal ∧ 0 < depth then
      -- The brace that closes the outermost pair ends a segment and is no part of it.
      if depth = 1 then inside.reverse :: segmentsFrom (some c) 0 [] rest
      else segmentsFrom (some c) (depth - 1) (c :: inside) rest
    else segmentsFrom (some c) depth (if depth = 0 then [] else c :: inside) rest

/-- The insides of the outermost pairs of braces as they are written. -/
def rawSegments (cs : List Char) : List (List Char) := segmentsFrom none 0 [] cs

/-! ## §3 Operators -/

/-- The operators that may not stand inside braces, in the order in which they are reported. -/
def forbiddenOperators : List Char := ['+', '-', '*', '/', '%', '?']

/-- The characters before which a backslash is dropped: the operators and the backslash. -/
def isEscapable (c : Char) : Bool := c = '\\' || c ∈ forbiddenOperators

/-- The text without the backslashes that escape an operator or a backslash. -/
def unescapeOperators : List Char → List Char
  | [] => []
  | '\\' :: c :: rest =>
    if isEscapable c then c :: unescapeOperators rest else '\\' :: unescapeOperators (c :: rest)
  | c :: rest => c :: unescapeOperators rest

/-- The segments of an expression, as they are reported. -/
def segments (s : String) : List String :=
  (rawSegments s.toList).map fun raw => String.ofList (unescapeOperators raw)

end PanelLayout.Expression
