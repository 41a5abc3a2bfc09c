/-!
# Icon modules

An icon comes from a module, which an expression names as `\x7bmodule:…`.  Module names are made
of ASCII letters and underscores.
-/

namespace PanelLayout.IconModule

/-! ## §1 Names -/

def isNameChar (c : Char) : Bool := c.isAlpha || c = '_'

/-- Is this a name that a module may have? -/
def isName (name : List Char) : Bool := !name.isEmpty && name.all isNameChar

/-! ## §2 References -/

/-- The module that a text refers to at its very beginning, as `\x7bname:`. -/
def referenceAt? : List Char → Option (List Char)
  | '\x7b' :: rest =>
    let name := rest.takeWhile isNameChar
    if !name.isEmpty && (rest.dropWhile isNameChar).head? = some ':' then some name else none
  | _ => none

/-- A reference to a module, and whether a backslash stands before its brace. -/
structure Reference where
  escaped : Bool
  name : List Char
  deriving DecidableEq, Repr

/-- The references of a text from left to right, of which no two overlap.  `before` is the
character before the text, and `covered` counts the characters that still belong to the last
reference found. -/
def search (before : Option Char) (covered : Nat) : List Char → List Reference
  | [] => []
  | c :: rest =>
    match covered with
    | n + 1 => search (some c) n rest
    | 0 =>
      match referenceAt? (c :: rest) with
      -- What is left of this reference is its name and the colon.
      | some name => ⟨before = some '\\', name⟩ :: search (some c) (name.length + 1) rest
      | none => search (some c) 0 rest

/-- The modules that a text refers to, those behind a backslash aside. -/
def references (s : String) : List String :=
  ((search none 0 s.toList).filter (!·.escaped)).map fun found => String.ofList found.name

end PanelLayout.IconModule
