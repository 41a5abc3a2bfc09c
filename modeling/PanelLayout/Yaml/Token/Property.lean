import PanelLayout.Yaml.Cursor
import PanelLayout.Yaml.Token

/-!
# Anchors, tags and directives as they are written

The small tokens that decorate a node or open a document: `&name`, `*name`, the forms of a tag
and the two directives.  Each reader starts at the token's first character and gives the token
and the place behind it, or nothing when it is misspelt.
-/

namespace PanelLayout.Yaml

/-! ## §1 Anchors and aliases -/

/-- The characters that may stand directly behind an anchor or alias. -/
def endsAnchor : List Char → Bool
  | '?' :: _ | ':' :: _ | ',' :: _ | ']' :: _ | '\x7d' :: _ | '%' :: _ | '@' :: _
  | '\x60' :: _ => true
  | cs => endsWord cs

def anchorName? (cur : Cursor) : Option (String × Cursor) :=
  let (name, cur) := cur.skip.span isWord
  if name.isEmpty || !endsAnchor cur.rest then none else some (String.ofList name, cur)

/-! ## §2 Tags -/

/-- The characters of a tag.  A verbatim tag, and the lead of a directive, may also hold the flow
indicators that remain. -/
def isTagChar (verbatim : Bool) (c : Char) : Bool :=
  isWord c || c = ';' || c = '/' || c = '?' || c = ':' || c = '@' || c = '&' || c = '=' ||
  c = '+' || c = '$' || c = '.' || c = '%' || c = '!' || c = '~' || c = '*' || c = '\x27' ||
  c = '(' || c = ')' || (verbatim && (c = ',' || c = '[' || c = ']'))

/-- How many octets follow the leading octet of an encoded character. -/
def following? (octet : Nat) : Option Nat :=
  if octet < 0x80 then some 0
  else if octet / 0x20 = 6 then some 1
  else if octet / 0x10 = 14 then some 2
  else if octet / 0x08 = 30 then some 3
  else none

/-- The octets of a text with its `%` escapes decoded.  Escapes come in groups that have the form
of an encoded character; `remaining` counts the octets of a group that are still to come. -/
def decodePercent? (remaining : Nat) : List Char → Option (List UInt8)
  | [] => if remaining = 0 then some [] else none
  | '%' :: a :: b :: rest =>
    match Literal.digit? a, Literal.digit? b with
    | some high, some low =>
      let octet := high * 16 + low
      let after? :=
        if remaining = 0 then following? octet
        else if octet / 0x40 = 2 then some (remaining - 1)
        else none
      match after? with
      | some after => (decodePercent? after rest).map (.ofNat octet :: ·)
      | none => none
    | _, _ => none
  | '%' :: _ => none
  | c :: rest =>
    if remaining = 0 then (decodePercent? 0 rest).map (String.utf8EncodeChar c ++ ·) else none

/-- Reads the octets of a tag; `verbatim` widens its characters. -/
def tagOctets? (verbatim : Bool) (cur : Cursor) : Option (List UInt8 × Cursor) :=
  let (text, cur) := cur.span (isTagChar verbatim)
  (decodePercent? 0 text).map (·, cur)

/-- Reads a tag handle: `!`, word characters, and the closing `!` if there is one. -/
def tagHandle? (cur : Cursor) : Option (List Char × Cursor) :=
  match cur.rest with
  | '!' :: _ =>
    let (name, cur) := cur.skip.span isWord
    match cur.rest with
    | '!' :: _ => some ('!' :: name ++ ['!'], cur.skip)
    | _ => some ('!' :: name, cur)
  | _ => none

def isClosedHandle (handle : List Char) : Bool :=
  2 ≤ handle.length && handle.getLast? = some '!'

/-- May a tag end here?  In flow context a comma ends it too. -/
def endsTag (flow : Bool) : List Char → Bool
  | ',' :: rest => flow || endsWord (',' :: rest)
  | cs => endsWord cs

/-- Reads a tag: verbatim `!<text>`, `!handle!text`, local `!text`, or the lone `!`, which has an
empty handle. -/
def tag? (flow : Bool) (cur : Cursor) : Option (Token × Cursor) := do
  let (handle, suffix, cur) ← match cur.rest with
    | '!' :: '<' :: _ => do
      let (octets, cur) ← tagOctets? true cur.skip.skip
      match cur.rest with
      | '>' :: _ => if octets.isEmpty then none else some ([], Tag.ofOctets octets, cur.skip)
      | _ => none
    | _ => do
      let (handle, cur) ← tagHandle? cur
      let (octets, cur) ← tagOctets? false cur
      if isClosedHandle handle then
        if octets.isEmpty then none else some (handle, Tag.ofOctets octets, cur)
      else
        -- What looked like a handle is the beginning of a local tag.
        let suffix := Tag.ofOctets (Tag.encode (handle.drop 1) ++ octets)
        if suffix.octets.isEmpty then some ([], Tag.lone, cur) else some (['!'], suffix, cur)
  if endsTag flow cur.rest then some (.tag (String.ofList handle) suffix, cur) else none

/-! ## §3 Directives -/

/-- Reads a number of at most nine digits. -/
def versionNumber? (cur : Cursor) : Option (Nat × Cursor) :=
  let (digits, cur) := cur.span Literal.isDecimal
  if digits.isEmpty || 9 < digits.length then none else some (Literal.runValue digits, cur)

/-- Reads what follows `%YAML`. -/
def versionDirective? (cur : Cursor) : Option (Token × Cursor) := do
  let (major, cur) ← versionNumber? (cur.skipWhile isGap)
  match cur.rest with
  | '.' :: _ => do
    let (minor, cur) ← versionNumber? cur.skip
    some (.versionDirective major minor, cur)
  | _ => none

/-- Reads what follows `%TAG`: a handle and what it stands for. -/
def tagDirective? (cur : Cursor) : Option (Token × Cursor) := do
  let (handle, cur) ← tagHandle? (cur.skipWhile isGap)
  if isClosedHandle handle || handle = ['!'] then
    match cur.rest with
    | c :: _ =>
      if isGap c then
        let (lead, cur) ← tagOctets? true (cur.skipWhile isGap)
        if lead.isEmpty || !endsWord cur.rest then none
        else some (.tagDirective (String.ofList handle) (.ofOctets lead), cur)
      else none
    | [] => none
  else none

def directive? (cur : Cursor) : Option (Token × Cursor) := do
  let (name, cur) := cur.skip.span isWord
  if !endsWord cur.rest then none
  else
    let (token, cur) ← match String.ofList name with
      | "YAML" => versionDirective? cur
      | "TAG" => tagDirective? cur
      | _ => none
    (cur.finishLine?).map (token, ·)

end PanelLayout.Yaml
