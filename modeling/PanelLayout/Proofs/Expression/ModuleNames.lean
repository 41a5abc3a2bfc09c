import PanelLayout.Proofs.Expression.References
import PanelLayout.Proofs.Findings.Aspects
import PanelLayout.Proofs.Walk.Preorder

/-!
# The names of icon modules

Two places know what the name of an icon module is: the adjustment that lists the known modules,
and the search for references.  They mean the same names.

* `Overrides.isModuleName_of_accepted` says of an adjustment what names it can list, and
  `apply_ofIconModules` that one can list them.
* `mem_references_append` puts such a name into braces, where it is found.
* `Node.mem_validate_unknownModule_iff` says which layouts are told about an unknown module.

`references_accepted` puts them together.
-/

namespace PanelLayout

/-! ## §1 Adjustments that list a module -/

namespace Overrides

variable {overrides : Overrides} {base rules : RuleSet} {name : String}

/-- The adjustment that replaces the icon modules and nothing else. -/
def ofIconModules (modules : List String) : Overrides :=
  { Overrides.none with iconModules := .some modules }

/-- The adjustment makes this module a known one. -/
def Lists (overrides : Overrides) (name : String) : Prop :=
  ∃ modules, overrides.iconModules = .some modules ∧ name ∈ modules

theorem isModuleName_of_accepted (happly : overrides.apply base = .ok rules)
    (hlists : overrides.Lists name) : isModuleName name = true := by
  obtain ⟨modules, hmodules, hmem⟩ := hlists
  exact ((apply_eq_ok_iff.1 happly).1.iconModules modules hmodules).2 name hmem

theorem mem_iconModules_of_accepted (happly : overrides.apply base = .ok rules)
    (hlists : overrides.Lists name) : name ∈ rules.iconModules := by
  obtain ⟨modules, hmodules, hmem⟩ := hlists
  obtain ⟨-, rfl⟩ := apply_eq_ok_iff.1 happly
  simpa [adjust, hmodules] using hmem

/-- Proper names can be listed under all rules. -/
theorem apply_ofIconModules {modules : List String} (hne : modules ≠ [])
    (hnames : ∀ name ∈ modules, isModuleName name = true) (base : RuleSet) :
    (ofIconModules modules).apply base = .ok { base with iconModules := modules } := by
  apply apply_of_forall_good
  have hsettings : (ofIconModules modules).settings =
      .iconModules modules :: modules.map .iconModule := List.append_nil _
  rw [hsettings, List.forall_mem_cons, List.forall_mem_map]
  exact ⟨hne, hnames⟩

end Overrides

/-! ## §2 Names in braces -/

namespace IconModule

variable {name front : String}

theorem isModuleName_of_mem_references {s : String} (h : name ∈ references s) :
    Overrides.isModuleName name = true := by
  obtain ⟨_, _, _, _, _, _, hname⟩ := mem_references_iff.1 h
  exact RuleSet.isModuleName_iff.2 hname

/-- A proper name in braces is found, unless its brace is escaped. -/
theorem mem_references_append (hname : Overrides.isModuleName name = true)
    (hfront : front.toList.getLast? ≠ some '\\') (back : String) :
    name ∈ references (front ++ "\x7b" ++ name ++ ":" ++ back) := by
  apply mem_references_iff.2
  refine ⟨front.toList.length, front.toList, back.toList, ?_, rfl, ?_, ?_⟩
  · simp
  · rwa [Expression.lastOf_none]
  · exact RuleSet.isModuleName_iff.1 hname

end IconModule

/-! ## §3 Layouts that are told about a module -/

/-- What an expression is told of an unknown module: it refers to it, in the name of an icon, and
the rules do not list it. -/
theorem Findings.mem_ofExpression_unknownModule_iff {rules : RuleSet} {field name allowed : String}
    {value : AttrValue} :
    .unknownIconModule name allowed ∈ ofExpression rules field value ↔
      field = "icon_id" ∧ (name ∈ IconModule.references value.render ∧ name ∉ rules.iconModules) ∧
        ", ".intercalate rules.iconModules = allowed := by
  -- No other judgement finds problems of this code.
  have hfilter : Problem.unknownIconModule name allowed ∈ ofExpression rules field value ↔
      .unknownIconModule name allowed ∈
        (ofExpression rules field value).filter (·.code = "UnknownIconModule") := by
    simp [Problem.code]
  rw [hfilter, filter_modules, ofModules, List.mem_ite_nil_right]
  simp [RuleSet.isIconModule, iconField]

namespace Node

variable {rules : RuleSet} {root : Node} {name allowed : String}

/-- What a node is told of its expressions, it is told at one of them. -/
theorem mem_findings_expression_iff {parent : Option Node} {depth : Nat} {node : Node}
    {place : Place} {problem : Problem}
    (h : (Finding.mk place problem).aspect? = some .expressions) :
    ⟨place, problem⟩ ∈ node.findings rules parent depth ↔
      ∃ field ∈ Findings.expressionFields, ∃ value, node.get? field = some value ∧
        problem ∈ Findings.ofExpression rules field value ∧ .field field = place := by
  rw [mem_findings_iff_of_aspect h, findingsOn, Findings.ofExpressions_eq_onAttributes,
    Findings.mem_onAttributes_iff]
  simp [Findings.judgeExpression]

/-- A layout is told of an unknown module at the nodes whose icons refer to it. -/
theorem mem_validate_unknownModule_iff {location : Location} :
    ⟨location, .unknownIconModule name allowed⟩ ∈ root.validate rules ↔
      ∃ stop node value, root.start.LeadsTo stop ∧ stop.entry = .node node ∧
        node.get? "icon_id" = some value ∧ location = ⟨stop.address, .field "icon_id"⟩ ∧
        (name ∈ IconModule.references value.render ∧ name ∉ rules.iconModules) ∧
        ", ".intercalate rules.iconModules = allowed := by
  have haspect : ∀ place,
      (Finding.mk place (.unknownIconModule name allowed)).aspect? = some .expressions :=
    fun _ => rfl
  rw [mem_validate_iff]
  apply Iff.intro
  · intro h
    obtain ⟨stop, hstop, hviolation⟩ := h
    rcases Stop.finding_or_malformed_of_mem hviolation with
      ⟨node, hentry, ⟨place, problem⟩, hfinding, hlocate⟩ | ⟨-, hmalformed⟩
    · cases hlocate
      obtain ⟨field, -, value, hget, hproblem, rfl⟩ :=
        (mem_findings_expression_iff (haspect place)).1 hfinding
      obtain ⟨rfl, hunknown⟩ := Findings.mem_ofExpression_unknownModule_iff.1 hproblem
      exact ⟨stop, node, value, hstop, hentry, hget, rfl, hunknown⟩
    · cases hmalformed
  · intro h
    obtain ⟨stop, node, value, hstop, hentry, hget, rfl, hunknown⟩ := h
    have hproblem := Findings.mem_ofExpression_unknownModule_iff.2 ⟨rfl, hunknown⟩
    have hfinding : ⟨.field "icon_id", .unknownIconModule name allowed⟩ ∈
        node.findings rules stop.parent stop.depth :=
      (mem_findings_expression_iff (haspect _)).2
        ⟨"icon_id", by decide, value, hget, hproblem, rfl⟩
    refine ⟨stop, hstop, ?_⟩
    rw [Stop.violations_of_node hentry]
    exact List.mem_map.2 ⟨_, hfinding, rfl⟩

end Node

/-! ## §4 One notion of a name -/

/-- **The known modules and the references speak about the same names.**  Every name that is found in
a text can be listed by an adjustment.  And a name that an accepted adjustment lists is found behind
every opening brace of a text, unless that is escaped: the rules that the adjustment makes tell no
layout that the module is unknown, and rules that do not list it tell every layout so at each icon
whose name is such a text. -/
theorem IconModule.references_accepted :
    (∀ (s name : String), name ∈ references s → ∀ base : RuleSet,
      (Overrides.ofIconModules [name]).apply base = .ok { base with iconModules := [name] }) ∧
    ∀ (overrides : Overrides) (base rules : RuleSet) (name : String),
      overrides.apply base = .ok rules → overrides.Lists name →
        (∀ front back : String, front.toList.getLast? ≠ some '\\' →
          name ∈ references (front ++ "\x7b" ++ name ++ ":" ++ back)) ∧
        (∀ (root : Node) (location : Location) (allowed : String),
          ⟨location, .unknownIconModule name allowed⟩ ∉ root.validate rules) ∧
        ∀ other : RuleSet, name ∉ other.iconModules →
          ∀ front back : String, front.toList.getLast? ≠ some '\\' →
            ∀ (root node : Node) (stop : Stop), root.start.LeadsTo stop → stop.entry = .node node →
              node.get? "icon_id" = some (.text (front ++ "\x7b" ++ name ++ ":" ++ back)) →
              ⟨⟨stop.address, .field "icon_id"⟩,
                .unknownIconModule name (", ".intercalate other.iconModules)⟩ ∈
                  root.validate other := by
  refine ⟨?listed, ?found⟩
  case listed =>
    intro s name hname base
    apply Overrides.apply_ofIconModules
    · simp
    · simpa using isModuleName_of_mem_references hname
  case found =>
    intro overrides base rules name happly hlists
    have hname := Overrides.isModuleName_of_accepted happly hlists
    have hknown := Overrides.mem_iconModules_of_accepted happly hlists
    refine ⟨fun front back hfront => mem_references_append hname hfront back, ?_, ?_⟩
    · intro root location allowed hviolation
      obtain ⟨_, _, _, -, -, -, -, hunknown, -⟩ :=
        Node.mem_validate_unknownModule_iff.1 hviolation
      exact hunknown.2 hknown
    · intro other hother front back hfront root node stop hstop hentry hget
      apply Node.mem_validate_unknownModule_iff.2
      exact ⟨stop, node, _, hstop, hentry, hget, rfl,
        ⟨mem_references_append hname hfront back, hother⟩, rfl⟩

/-- An icon of a module that the built-in rules do not know. -/
def Node.clockFace : Node :=
  ⟨[("type", .text "icon"), ("icon_id", .text "late_\x7bclock_icon:face\x7d")]⟩

/-- The module that is found in the name of the icon is unknown, until it is listed. -/
theorem IconModule.references_clockFace :
    "clock_icon" ∈ references "late_\x7bclock_icon:face\x7d" ∧
      ∃ rules, (Overrides.ofIconModules ["clock_icon"]).apply .builtin = .ok rules ∧
        (∀ location allowed, ⟨location, .unknownIconModule "clock_icon" allowed⟩ ∉
          Node.clockFace.validate rules) ∧
        ⟨⟨.root, .field "icon_id"⟩,
          .unknownIconModule "clock_icon" "digit_icon, weather_icon, system_icon"⟩ ∈
            Node.clockFace.validate .builtin := by
  obtain ⟨hlisted, hfound⟩ := references_accepted
  have hmem : "clock_icon" ∈ references "late_\x7bclock_icon:face\x7d" := by decide
  have happly := hlisted _ _ hmem .builtin
  obtain ⟨-, hknown, hunknown⟩ :=
    hfound _ _ _ "clock_icon" happly ⟨["clock_icon"], rfl, by simp⟩
  refine ⟨hmem, _, happly, hknown .clockFace, ?_⟩
  exact hunknown .builtin (by decide) "late_" "face\x7d" (by decide) .clockFace .clockFace
    Node.clockFace.start .refl rfl rfl

end PanelLayout
