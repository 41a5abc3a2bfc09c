/-!
# Tags

A tag is a run of octets.  It is written in characters, but its escapes spell octets one by one,
and these need not encode any text.  A tag ends before its first zero octet.

The tags of the core types begin with `tag:yaml.org,2002:`; a tag that begins with `!` is a
document's own.
-/

namespace PanelLayout.Yaml

/-- A tag, octet by octet. -/
structure Tag where
  octets : List UInt8
  deriving DecidableEq, Repr

namespace Tag

/-! ## §1 Making tags -/

/-- The octets that encode some characters. -/
def encode (cs : List Char) : List UInt8 := cs.flatMap String.utf8EncodeChar

/-- The tag that some octets spell, up to the first zero octet. -/
def ofOctets (octets : List UInt8) : Tag := ⟨octets.takeWhile (· ≠ 0)⟩

def ofString (text : String) : Tag := ofOctets (encode text.toList)

def append (lead suffix : Tag) : Tag := ⟨lead.octets ++ suffix.octets⟩

def lone : Tag := ofString "!"

/-- What stands for the core types. -/
def coreLead : Tag := ofString "tag:yaml.org,2002:"

/-- The tag of the core type of that name. -/
def core (name : String) : Tag := coreLead.append (ofString name)

/-! ## §2 What a tag tells -/

/-- Is this a tag of the document's own, such as `!x`? -/
def isLocal (tag : Tag) : Bool := tag.octets.head? = some 0x21

/-- The octets of a local tag behind its `!`; the lone `!` stays as it is. -/
def bareOctets : List UInt8 → List UInt8
  | 0x21 :: octet :: rest => octet :: rest
  | octets => octets

/-- The text that some octets encode, if they encode one. -/
def decode? (octets : List UInt8) : Option String := String.fromUTF8? ⟨octets.toArray⟩

/-- The name of a local tag: the text behind its `!`, if there is one, or else `!` itself.  Octets
that encode no text name nothing. -/
def localName? (tag : Tag) : Option String :=
  if tag.isLocal then decode? (bareOctets tag.octets) else none

end Tag

end PanelLayout.Yaml
