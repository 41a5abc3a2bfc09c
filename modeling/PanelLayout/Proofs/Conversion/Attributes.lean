import PanelLayout.Document
import PanelLayout.Proofs.Insertion

/-!
# The attributes of a converted mapping

The conversion of a mapping inserts its entries one after the other.  Read from the node, an
attribute is the conversion of one entry only: of the last one whose key has the attribute's name as
its text.

* `Node.mk_insertEntries` makes a run of insertions of the conversion.
* `Yaml.Value.under?` looks this entry up in the mapping.
* `Node.get?_of_ofValue?` reads any attribute of the node off the mapping.
-/

namespace PanelLayout

open Yaml (Value)

/-! ## §1 Tags on a value -/

/-- What looks through one tag looks through all of them. -/
theorem Yaml.Value.apply_untagged {α : Type} {f : Value → α}
    (h : ∀ tag value, f (.tagged tag value) = f value) (value : Value) :
    f value.untagged = f value := by
  fun_induction Value.untagged value with
  | case1 tag value ih => rw [ih, h]
  | case2 value hvalue => rfl

theorem Node.ofValue?_untagged (value : Value) :
    Node.ofValue? value.untagged = Node.ofValue? value :=
  Value.apply_untagged (fun _ _ => by rw [Node.ofValue?]) value

theorem Child.ofValue_untagged (value : Value) :
    Child.ofValue value.untagged = Child.ofValue value :=
  Value.apply_untagged (fun _ _ => by rw [Child.ofValue]) value

/-- Tags are looked through, but child entries are not looked for behind them. -/
theorem AttrValue.ofValue_untagged (value : Value) :
    AttrValue.ofValue false value.untagged = AttrValue.ofValue false value :=
  Value.apply_untagged (fun _ _ => by rw [AttrValue.ofValue]) value

namespace Yaml.Value

theorem untagged_ne_tagged (value : Value) (tag : String) (inner : Value) :
    value.untagged ≠ .tagged tag inner := by
  fun_induction untagged value with
  | case1 tag value ih => exact ih
  | case2 value hvalue => exact hvalue tag inner

/-- Is this a mapping, looked at through tags? -/
def isMapping (value : Value) : Bool :=
  match value.untagged with
  | .mapping _ => true
  | _ => false

theorem isMapping_iff {value : Value} :
    value.isMapping = true ↔ ∃ entries, value.untagged = .mapping entries := by
  unfold isMapping
  split
  · rename_i entries hvalue
    exact ⟨fun _ => ⟨entries, hvalue⟩, fun _ => rfl⟩
  · rename_i hother
    exact ⟨fun h => absurd h (by simp), fun ⟨entries, hvalue⟩ => absurd hvalue (hother entries)⟩

end Yaml.Value

theorem Node.ofValue?_eq_some_iff {value : Value} {node : Node} :
    Node.ofValue? value = some node ↔
      ∃ entries, value.untagged = .mapping entries ∧ node = ⟨insertEntries [] entries⟩ := by
  rw [← Node.ofValue?_untagged]
  cases huntagged : value.untagged with
  | mapping entries =>
    rw [Node.ofValue?, Option.some_inj]
    constructor
    · rintro rfl
      exact ⟨entries, rfl, rfl⟩
    · rintro ⟨_, ⟨⟩, rfl⟩
      rfl
  | tagged tag inner => exact absurd huntagged (value.untagged_ne_tagged tag inner)
  | _ => simp [Node.ofValue?]

/-- A value is converted to a node just if it is a mapping. -/
theorem Node.exists_ofValue?_iff {value : Value} :
    (∃ node, Node.ofValue? value = some node) ↔ value.isMapping = true := by
  rw [Value.isMapping_iff]
  constructor
  · rintro ⟨node, hnode⟩
    obtain ⟨entries, hentries, -⟩ := Node.ofValue?_eq_some_iff.1 hnode
    exact ⟨entries, hentries⟩
  · rintro ⟨entries, hentries⟩
    exact ⟨_, Node.ofValue?_eq_some_iff.2 ⟨entries, hentries, rfl⟩⟩

/-- A mapping as an attribute value is the node that it is.  What stands for a mapping that is no
node, such as null, is never taken. -/
theorem AttrValue.ofValue_mapping (asChildren : Bool) (entries : List (Value × Value))
    (fallback : AttrValue) :
    AttrValue.ofValue asChildren (.mapping entries) =
      match Node.ofValue? (.mapping entries) with
      | some node => .map node
      | none => fallback := by
  rw [AttrValue.ofValue, Node.ofValue?]

/-! ## §2 Entries -/

namespace Yaml.Value

/-- The name of the attribute that a key stands for. -/
def keyText (key : Value) : String := (AttrValue.ofValue false key).render

/-- The attribute that an entry of a mapping gives. -/
def attributeOf (entry : Value × Value) : String × AttrValue :=
  (entry.1.keyText, AttrValue.ofValue (entry.1.keyText = "children") entry.2)

/-- What stands under a name in a mapping: the value of the last entry whose key has that text. -/
def under? (name : String) (value : Value) : Option Value :=
  match value.untagged with
  | .mapping entries => (entries.reverse.find? fun entry => entry.1.keyText = name).map (·.2)
  | _ => none

end Yaml.Value

open Yaml.Value (attributeOf)

/-- The entries give their names their values, one after the other. -/
theorem insertEntries_eq_setAll (attributes : List (String × AttrValue))
    (entries : List (Value × Value)) :
    insertEntries attributes entries = NamedList.setAll attributes (entries.map attributeOf) := by
  induction entries generalizing attributes with
  | nil => rfl
  | cons entry rest ih =>
    obtain ⟨key, value⟩ := entry
    rw [insertEntries, ih]
    rfl

/-- A mapping is converted by inserting what its entries give. -/
theorem Node.mk_insertEntries (entries : List (Value × Value)) :
    (⟨insertEntries [] entries⟩ : Node) = ofList (entries.map attributeOf) := by
  rw [insertEntries_eq_setAll, ← attributes_ofList]
  cases ofList (entries.map attributeOf)
  rfl

theorem lookup_map_attributeOf (entries : List (Value × Value)) (name : String) :
    (entries.map attributeOf).lookup name =
      ((entries.find? fun entry => entry.1.keyText = name).map (·.2)).map
        (AttrValue.ofValue (name = "children")) := by
  induction entries with
  | nil => rfl
  | cons entry rest ih =>
    obtain ⟨key, value⟩ := entry
    rw [List.map_cons, attributeOf, NamedList.lookup_cons_ite, ih, List.find?_cons]
    -- The first entry of the name is found on either side, in the converted list and in the entries.
    by_cases hkey : key.keyText = name
    · subst hkey
      simp
    · have hname : ¬ name = key.keyText := fun heq => hkey heq.symm
      simp [hkey, hname]

/-- An attribute is the conversion of what stands under its name. -/
theorem Node.get?_of_ofValue? {value : Value} {node : Node} (h : Node.ofValue? value = some node)
    (name : String) :
    node.get? name = (value.under? name).map (AttrValue.ofValue (name = "children")) := by
  obtain ⟨entries, huntagged, rfl⟩ := Node.ofValue?_eq_some_iff.1 h
  rw [mk_insertEntries, get?_ofList, ← List.map_reverse, lookup_map_attributeOf, Value.under?,
    huntagged]

end PanelLayout
