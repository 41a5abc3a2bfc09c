import PanelLayout.Proofs.Rules.Reachable

/-!
# Adjustments one after the other

Two adjustments in a row come to one: `Overrides.merge` puts the second on top of the first, so that
where both give a setting the second counts.  The rules are the same, but for the order of the
aliases that neither knew before: a merged table is sorted as a whole, while two adjustments append
their new aliases one table after the other.

* §2 reads the merged settings one by one.
* `RuleSet.EqualUpToNewAliases` says in what two rule sets may differ.
* `Overrides.TakenOver` says of adjusted rules where each setting comes from.

`Overrides.apply_merge` puts it together, with the adjustment that is repeated and the one that gives
nothing.
-/

namespace PanelLayout

/-! ## §1 One adjustment on top of another -/

/-- The limits of `second` where it gives them, and otherwise those of `first`. -/
def LimitOverrides.merge (first second : LimitOverrides) : LimitOverrides where
  maxNodeDepth := second.maxNodeDepth.or first.maxNodeDepth
  maxChildren := second.maxChildren.or first.maxChildren
  maxExpressionDepth := second.maxExpressionDepth.or first.maxExpressionDepth

namespace Overrides

variable {base rules between last : RuleSet} {overrides first second : Overrides}

/-- The settings of `second` where it gives them, and otherwise those of `first`; the tables of font
sizes and of greatest lengths are united name by name. -/
def merge (first second : Overrides) : Overrides where
  canvas := second.canvas.or first.canvas
  fontSizes := Option.merge NameTable.union first.fontSizes second.fontSizes
  iconModules := second.iconModules.or first.iconModules
  limits := Option.merge LimitOverrides.merge first.limits second.limits
  maxLengths := Option.merge NameTable.union first.maxLengths second.maxLengths

/-! ## §2 The merged settings -/

theorem nodeDepth?_merge :
    (first.merge second).nodeDepth? = second.nodeDepth?.or first.nodeDepth? := by
  simp only [nodeDepth?, merge]
  cases first.limits <;> cases second.limits <;> simp [LimitOverrides.merge]

theorem children?_merge :
    (first.merge second).children? = second.children?.or first.children? := by
  simp only [children?, merge]
  cases first.limits <;> cases second.limits <;> simp [LimitOverrides.merge]

theorem expressionDepth?_merge :
    (first.merge second).expressionDepth? = second.expressionDepth?.or first.expressionDepth? := by
  simp only [expressionDepth?, merge]
  cases first.limits <;> cases second.limits <;> simp [LimitOverrides.merge]

section tables

variable {α : Type} {bottom top : Option (NameTable α)}

/-- A name has the value that the upper table gives it, and if it gives none that of the lower. -/
theorem lookup_entriesOf_merge (name : String) :
    (entriesOf (Option.merge NameTable.union bottom top)).lookup name =
      ((entriesOf top).lookup name).or ((entriesOf bottom).lookup name) := by
  cases bottom with
  | none => cases top <;> simp [entriesOf]
  | some bottom =>
    cases top with
    | none => simp [entriesOf]
    | some top => exact NameTable.lookup_union bottom top name

theorem mem_entriesOf_merge {entry : String × α}
    (h : entry ∈ entriesOf (Option.merge NameTable.union bottom top)) :
    entry ∈ entriesOf bottom ∨ entry ∈ entriesOf top := by
  have hlookup := NamedList.lookup_of_mem (nodup_names_entriesOf _) h
  rw [lookup_entriesOf_merge, Option.or_eq_some_iff] at hlookup
  rcases hlookup with htop | ⟨-, hbottom⟩
  · exact .inr (NamedList.mem_of_lookup htop)
  · exact .inl (NamedList.mem_of_lookup hbottom)

variable {entries : List (String × α)}

/-- Giving the values of the merged table reads as giving those of one table after the other. -/
theorem lookup_setAll_merge (name : String) :
    (NamedList.setAll entries (entriesOf (Option.merge NameTable.union bottom top))).lookup name =
      (NamedList.setAll (NamedList.setAll entries (entriesOf bottom)) (entriesOf top)).lookup name := by
  rw [NamedList.lookup_setAll (nodup_names_entriesOf _), lookup_entriesOf_merge,
    NamedList.lookup_setAll (nodup_names_entriesOf _),
    NamedList.lookup_setAll (nodup_names_entriesOf _), Option.or_assoc]

/-- Giving the values of a table a second time changes nothing. -/
theorem setAll_setAll_self (h : (NamedList.names entries).Nodup) (table : Option (NameTable α)) :
    NamedList.setAll (NamedList.setAll entries (entriesOf table)) (entriesOf table) =
      NamedList.setAll entries (entriesOf table) := by
  have hgiven := nodup_names_entriesOf table
  refine NamedList.eq_of_lookup (NamedList.nodup_names_setAll (NamedList.nodup_names_setAll h)) ?_ ?_
  · -- The second time all names are known.
    refine NamedList.names_setAll_of_known hgiven fun entry hentry => ?_
    rw [← NamedList.isSome_lookup_iff, NamedList.lookup_setAll hgiven,
      NamedList.lookup_of_mem hgiven hentry]
    rfl
  · intro name
    rw [NamedList.lookup_setAll hgiven, NamedList.lookup_setAll hgiven, ← Option.or_assoc,
      Option.or_self]

end tables

theorem Acceptable.congr {base' : RuleSet} (h : overrides.Acceptable base)
    (hnames : NamedList.names base'.maxLengths = NamedList.names base.maxLengths) :
    overrides.Acceptable base' :=
  { h with maxLengths := fun entry hentry => hnames ▸ h.maxLengths entry hentry }

/-- What is acceptable one after the other is so at once. -/
theorem Acceptable.merge (hfirst : first.Acceptable base) (hsecond : second.Acceptable base) :
    (first.merge second).Acceptable base where
  canvas := by
    intro canvas hcanvas
    rcases Option.or_eq_some_iff.1 hcanvas with h | ⟨-, h⟩
    · exact hsecond.canvas canvas h
    · exact hfirst.canvas canvas h
  fontSizes := by
    intro entry hentry
    rcases mem_entriesOf_merge hentry with h | h
    · exact hfirst.fontSizes entry h
    · exact hsecond.fontSizes entry h
  iconModules := by
    intro modules hmodules
    rcases Option.or_eq_some_iff.1 hmodules with h | ⟨-, h⟩
    · exact hsecond.iconModules modules h
    · exact hfirst.iconModules modules h
  nodeDepth := by
    intro hzero
    rw [nodeDepth?_merge] at hzero
    rcases Option.or_eq_some_iff.1 hzero with h | ⟨-, h⟩
    · exact hsecond.nodeDepth h
    · exact hfirst.nodeDepth h
  children := by
    intro hzero
    rw [children?_merge] at hzero
    rcases Option.or_eq_some_iff.1 hzero with h | ⟨-, h⟩
    · exact hsecond.children h
    · exact hfirst.children h
  maxLengths := by
    intro entry hentry
    rcases mem_entriesOf_merge hentry with h | h
    · exact hfirst.maxLengths entry h
    · exact hsecond.maxLengths entry h

end Overrides

/-! ## §3 Rules that are equal up to new aliases -/

/-- Two rule sets that differ at most in the order of the aliases that `base` does not know. -/
structure RuleSet.EqualUpToNewAliases (base rules rules' : RuleSet) : Prop where
  canvas : rules.canvas = rules'.canvas
  limits : rules.limits = rules'.limits
  maxLengths : rules.maxLengths = rules'.maxLengths
  iconModules : rules.iconModules = rules'.iconModules
  /-- The aliases of `base` come first, in the same order and with the same sizes. -/
  known : rules.fontSizes.take base.fontSizes.length = rules'.fontSizes.take base.fontSizes.length
  aliases : NamedList.names (rules.fontSizes.take base.fontSizes.length) =
    NamedList.names base.fontSizes
  fontSizes : rules.fontSizes.Perm rules'.fontSizes
  fontSize? : ∀ name, rules.fontSize? name = rules'.fontSize? name

namespace Overrides

variable {base rules between last : RuleSet} {overrides first second : Overrides}

/-- The aliases that were known stay in front. -/
theorem prefix_names_fontSizes_adjust (overrides : Overrides) (base : RuleSet) :
    NamedList.names base.fontSizes <+: NamedList.names (overrides.adjust base).fontSizes := by
  rw [adjust, NamedList.names_setAll (nodup_names_entriesOf _)]
  exact List.prefix_append ..

theorem names_take_fontSizes (h : NamedList.names base.fontSizes <+: NamedList.names rules.fontSizes) :
    NamedList.names (rules.fontSizes.take base.fontSizes.length) =
      NamedList.names base.fontSizes := by
  have hlength : base.fontSizes.length = (NamedList.names base.fontSizes).length :=
    (List.length_map ..).symm
  rw [NamedList.names, List.map_take, hlength]
  exact (List.prefix_iff_eq_take.1 h).symm

/-- Adjusting at once makes the rules that adjusting twice makes, up to new aliases. -/
theorem adjust_merge (hbase : base.Sound) (hfirst : first.Acceptable base)
    (hsecond : second.Acceptable base) :
    base.EqualUpToNewAliases ((first.merge second).adjust base)
      (second.adjust (first.adjust base)) := by
  have hfields : (NamedList.names base.maxLengths).Nodup := by
    rw [hbase.fields]
    decide
  have hbetween : second.Acceptable (first.adjust base) :=
    hsecond.congr (names_maxLengths_adjust hfirst)
  -- On either way the aliases of `base` stay in front.
  have hmerged := names_take_fontSizes (prefix_names_fontSizes_adjust (first.merge second) base)
  have hlast := names_take_fontSizes ((prefix_names_fontSizes_adjust first base).trans
    (prefix_names_fontSizes_adjust second (first.adjust base)))
  have hnodup : (NamedList.names ((first.merge second).adjust base).fontSizes).Nodup :=
    NamedList.nodup_names_setAll hbase.aliases
  have hnodup' : (NamedList.names (second.adjust (first.adjust base)).fontSizes).Nodup :=
    NamedList.nodup_names_setAll (NamedList.nodup_names_setAll hbase.aliases)
  have hsizes : ∀ name, ((first.merge second).adjust base).fontSizes.lookup name =
      (second.adjust (first.adjust base)).fontSizes.lookup name :=
    fun name => lookup_setAll_merge name
  refine ⟨Option.getD_or, ?_, ?_, Option.getD_or, ?_, hmerged, ?_, hsizes⟩
  · simp only [adjust, nodeDepth?_merge, children?_merge, expressionDepth?_merge, Option.getD_or]
  · refine NamedList.eq_of_lookup (NamedList.nodup_names_setAll hfields) ?_ fun field =>
      lookup_setAll_merge field
    -- No field is new, neither at once nor one after the other.
    exact (names_maxLengths_adjust (hfirst.merge hsecond)).trans
      ((names_maxLengths_adjust hbetween).trans (names_maxLengths_adjust hfirst)).symm
  · refine NamedList.eq_of_lookup (hmerged ▸ hbase.aliases) (hmerged.trans hlast.symm) fun name => ?_
    by_cases hname : name ∈ NamedList.names base.fontSizes
    · rw [NamedList.lookup_take (hmerged ▸ hname), NamedList.lookup_take (hlast ▸ hname), hsizes]
    · rw [NamedList.lookup_eq_none_iff.2 (hmerged ▸ hname),
        NamedList.lookup_eq_none_iff.2 (hlast ▸ hname)]
  · exact NamedList.perm_of_lookup hnodup hnodup' hsizes

/-! ## §4 Where the settings come from -/

/-- Every setting of the rules is the one that the overrides give, and if they give none that of
`base`.  No alias is dropped or moved, and no field becomes limited that was not. -/
structure TakenOver (overrides : Overrides) (base rules : RuleSet) : Prop where
  canvas : rules.canvas = overrides.canvas.getD base.canvas
  nodeDepth : rules.limits.maxNodeDepth = overrides.nodeDepth?.getD base.limits.maxNodeDepth
  children : rules.limits.maxChildren = overrides.children?.getD base.limits.maxChildren
  expressionDepth : rules.limits.maxExpressionDepth =
    overrides.expressionDepth?.getD base.limits.maxExpressionDepth
  iconModules : rules.iconModules = overrides.iconModules.getD base.iconModules
  fontSizes : ∀ name, rules.fontSize? name =
    ((entriesOf overrides.fontSizes).lookup name).or (base.fontSize? name)
  aliases : NamedList.names base.fontSizes <+: NamedList.names rules.fontSizes
  maxLengths : ∀ field, rules.maxLength? field =
    ((entriesOf overrides.maxLengths).lookup field).or (base.maxLength? field)
  fields : NamedList.names rules.maxLengths = NamedList.names base.maxLengths

theorem takenOver_adjust (h : overrides.Acceptable base) :
    overrides.TakenOver base (overrides.adjust base) where
  canvas := rfl
  nodeDepth := rfl
  children := rfl
  expressionDepth := rfl
  iconModules := rfl
  fontSizes := NamedList.lookup_setAll (nodup_names_entriesOf _)
  aliases := prefix_names_fontSizes_adjust overrides base
  maxLengths := NamedList.lookup_setAll (nodup_names_entriesOf _)
  fields := names_maxLengths_adjust h

/-- Adjusting a second time changes nothing. -/
theorem adjust_adjust_self (hbase : base.Sound) :
    overrides.adjust (overrides.adjust base) = overrides.adjust base := by
  have hfields : (NamedList.names base.maxLengths).Nodup := by
    rw [hbase.fields]
    decide
  have hself : ∀ {α : Type} (given : Option α) (old : α),
      given.getD (given.getD old) = given.getD old := by
    intro α given old
    cases given <;> rfl
  have hlengths := setAll_setAll_self hfields overrides.maxLengths
  have hsizes := setAll_setAll_self hbase.aliases overrides.fontSizes
  simp only [adjust, hself, hlengths, hsizes]

/-- **Two adjustments in a row come to one.**  Under reachable rules, let two adjustments be accepted
one after the other.  Then the second put on top of the first is accepted as well, and makes the same
rules, except that aliases which are new may come in another order.  An adjustment that is accepted
is so again on its own result, which it leaves as it is, and of what it does not mention nothing is
changed; the one that mentions nothing gives the rules back. -/
theorem apply_merge (hbase : base.Reachable) :
    (∀ (first second : Overrides) (between last : RuleSet), first.apply base = .ok between →
      second.apply between = .ok last →
        ∃ merged, (first.merge second).apply base = .ok merged ∧
          base.EqualUpToNewAliases merged last) ∧
    (∀ (overrides : Overrides) (rules : RuleSet), overrides.apply base = .ok rules →
      overrides.apply rules = .ok rules ∧ overrides.TakenOver base rules) ∧
    Overrides.none.apply base = .ok base := by
  have hsound : base.Sound := hbase.sound
  refine ⟨?_, ?_, rfl⟩
  · intro first second between last happly happly'
    obtain ⟨hfirst, rfl⟩ := apply_eq_ok_iff.1 happly
    obtain ⟨hsecond, rfl⟩ := apply_eq_ok_iff.1 happly'
    -- The first adjustment limits no further field, so the second would be accepted at once.
    have hbefore : second.Acceptable base := hsecond.congr (names_maxLengths_adjust hfirst).symm
    exact ⟨_, apply_eq_ok_iff.2 ⟨hfirst.merge hbefore, rfl⟩, adjust_merge hsound hfirst hbefore⟩
  · intro overrides rules happly
    obtain ⟨hacceptable, rfl⟩ := apply_eq_ok_iff.1 happly
    have hagain : overrides.Acceptable (overrides.adjust base) :=
      hacceptable.congr (names_maxLengths_adjust hacceptable)
    exact ⟨apply_eq_ok_iff.2 ⟨hagain, (adjust_adjust_self hsound).symm⟩,
      takenOver_adjust hacceptable⟩

/-- A smaller panel with one more size. -/
def tinyText : Overrides :=
  { Overrides.none with
    canvas := .some ⟨400, 300⟩
    fontSizes := .some (.ofList [("Tiny", .ofNat 9), ("Small", .ofNat 12)]) }

/-- One more size, a size that is known by then, and shorter names. -/
def hugeText : Overrides :=
  { Overrides.none with
    fontSizes := .some (.ofList [("Huge", .ofNat 60), ("Tiny", .ofNat 10)])
    limits := .some ⟨.none, .some 8, .none⟩
    maxLengths := .some (.ofList [("id", 16)]) }

/-- Adjusted one after the other the built-in rules know `Tiny` before `Huge`, and adjusted at once
the other way round; all else is the same.  The first adjustment changes nothing when repeated. -/
theorem apply_merge_tinyText_hugeText :
    RuleSet.builtin.Reachable ∧
      ∃ between last merged, tinyText.apply .builtin = .ok between ∧
        tinyText.apply between = .ok between ∧ hugeText.apply between = .ok last ∧
        (tinyText.merge hugeText).apply .builtin = .ok merged ∧
        RuleSet.builtin.EqualUpToNewAliases merged last ∧
        last.fontSizes.drop 3 = [("Tiny", .ofNat 10), ("Huge", .ofNat 60)] ∧
        merged.fontSizes.drop 3 = [("Huge", .ofNat 60), ("Tiny", .ofNat 10)] := by
  have hfirst : tinyText.apply .builtin = .ok (tinyText.adjust .builtin) := by decide +kernel
  have hsecond : hugeText.apply (tinyText.adjust .builtin) =
      .ok (hugeText.adjust (tinyText.adjust .builtin)) := by decide +kernel
  obtain ⟨hmerge, hself, -⟩ := apply_merge .builtin
  obtain ⟨merged, hmerged, hequal⟩ := hmerge _ _ _ _ hfirst hsecond
  obtain ⟨hagain, -⟩ := hself _ _ hfirst
  obtain rfl := (apply_eq_ok_iff.1 hmerged).2
  exact ⟨.builtin, _, _, _, hfirst, hagain, hsecond, hmerged, hequal, by decide +kernel,
    by decide +kernel⟩

end Overrides

end PanelLayout
