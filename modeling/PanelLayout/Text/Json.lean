/-!
# JSON text

JSON values without numbers, as far as reports need them, and their text: two spaces for each
level, one entry to a line, and empty arrays and objects in one piece.  Characters outside ASCII
are written as they are.
-/

namespace PanelLayout

/-- A JSON value made of strings. -/
inductive Json where
  | string (text : String)
  | array (items : List Json)
  | object (fields : List (String × Json))

namespace Json

/-! ## §1 Strings -/

/-- The last two hexadecimal digits of a number below 256. -/
def hexByte (n : Nat) : List Char := [Nat.digitChar (n / 16), Nat.digitChar (n % 16)]

/-- How one character is written between quotes. -/
def escapeChar (c : Char) : List Char :=
  match c with
  | '\x22' => ['\\', '\x22']
  | '\\' => ['\\', '\\']
  | '\x08' => ['\\', 'b']
  | '\x0c' => ['\\', 'f']
  | '\n' => ['\\', 'n']
  | '\r' => ['\\', 'r']
  | '\t' => ['\\', 't']
  | c => if c.toNat < 0x20 then ['\\', 'u', '0', '0'] ++ hexByte c.toNat else [c]

def quote (s : String) : String :=
  String.ofList ('\x22' :: s.toList.flatMap escapeChar ++ ['\x22'])

/-! ## §2 Values -/

/-- The blanks in front of a line. -/
def margin (level : Nat) : String := String.ofList (List.replicate (2 * level) ' ')

/-- Entries between brackets, one to a line. -/
def enclose (level : Nat) (opening closing : String) (entries : List String) : String :=
  if entries.isEmpty then opening ++ closing
  else
    -- The closing bracket stands on a line of its own, one level further out.
    let lines := entries.map (margin (level + 1) ++ ·)
    opening ++ "\n" ++ ",\n".intercalate lines ++ "\n" ++ margin level ++ closing

mutual

/-- The text of a value that begins at the given level. -/
def renderAt (level : Nat) : Json → String
  | string text => quote text
  | array items => enclose level "[" "]" (renderItemsAt (level + 1) items)
  | object fields => enclose level "\x7b" "\x7d" (renderFieldsAt (level + 1) fields)

def renderItemsAt (level : Nat) : List Json → List String
  | [] => []
  | item :: rest => item.renderAt level :: renderItemsAt level rest

def renderFieldsAt (level : Nat) : List (String × Json) → List String
  | [] => []
  | (name, value) :: rest =>
    (quote name ++ ": " ++ value.renderAt level) :: renderFieldsAt level rest

end

def render (value : Json) : String := value.renderAt 0

end Json

end PanelLayout
