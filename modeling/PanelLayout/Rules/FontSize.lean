import PanelLayout.Node.Basic
import PanelLayout.Numeric.Literal
import PanelLayout.Rules.RuleSet
import PanelLayout.Text.Blank

/-!
# Font sizes

A font size is given as a number of pixels, as a text such as `16px`, or by a named size of the
rule set.  A text that ends in `px` is never looked up by name.
-/

namespace PanelLayout.FontSize

/-- The text in front of a closing `px`, if there is one. -/
def beforePx? (cs : List Char) : Option (List Char) :=
  match cs.reverse with
  | 'x' :: 'p' :: rest => some rest.reverse
  | _ => none

/-- The pixels that a text gives: a finite number before `px`, blanks around it aside, or a named
size. -/
def ofText? (rules : RuleSet) (text : String) : Option Binary64 :=
  match beforePx? text.toList with
  | some cs => (Binary64.ofLiteral? (String.ofList (Text.trim cs))).filter (·.isFinite)
  | none => rules.fontSize? text

def resolve? (rules : RuleSet) : AttrValue → Option Binary64
  | .number n => some n.toBinary64
  | .text s => ofText? rules s
  | _ => none

end PanelLayout.FontSize
