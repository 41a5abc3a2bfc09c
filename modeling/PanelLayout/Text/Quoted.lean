import PanelLayout.Text.Printable

/-!
# Quoted text

A text in double quotes, as it is shown inside a message.  Quotes and backslashes are escaped, as
are the characters that cannot be seen by themselves: controls, format characters, unassigned and
private code points, white space other than the plain space, and marks that join the character
before them.
-/

namespace PanelLayout.Text

def hex (n : Nat) : List Char := Nat.toDigits 16 n

/-- How one character is shown between quotes. -/
def quoteChar (c : Char) : List Char :=
  match c with
  | '\x00' => ['\\', '0']
  | '\t' => ['\\', 't']
  | '\n' => ['\\', 'n']
  | '\r' => ['\\', 'r']
  | '\x22' => ['\\', '\x22']
  | '\\' => ['\\', '\\']
  | c =>
    if isJoining c || !isPrintable c then '\\' :: 'u' :: '\x7b' :: hex c.toNat ++ ['\x7d'] else [c]

def quoted (s : String) : String :=
  String.ofList ('\x22' :: s.toList.flatMap quoteChar ++ ['\x22'])

end PanelLayout.Text
