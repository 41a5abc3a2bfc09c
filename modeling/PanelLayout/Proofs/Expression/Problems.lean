import PanelLayout.Findings.Expressions

/-!
# The problems of an expression

An expression is judged in four ways, and each of them finds problems of one code:
`problem_of_mem_ofExpression` lists them.  So the problems of one code are those of one judgement, in
the same order: `filter_operators` and `filter_modules` say this of the two that read braces.
-/

namespace PanelLayout.Findings

variable {rules : RuleSet} {field raw : String} {value : AttrValue} {problem : Problem}

/-- What is found at an expression is one of four problems. -/
theorem problem_of_mem_ofExpression (h : problem ∈ ofExpression rules field value) :
    problem = .emptyRequiredExpression ∨
    (∃ depth max, problem = .expressionTooDeep depth max) ∨
    (∃ operator segment, problem = .forbiddenOperatorInExpression operator segment) ∨
    ∃ name known, problem = .unknownIconModule name known := by
  simp only [ofExpression, List.mem_append] at h
  rcases h with ((hblank | hdepth) | hsegments) | hmodules
  · rw [ofBlank, List.mem_ite_nil_right, List.mem_singleton] at hblank
    exact .inl hblank.2
  · dsimp only [ofExpressionDepth] at hdepth
    rw [List.mem_ite_nil_right, List.mem_singleton] at hdepth
    exact .inr (.inl ⟨_, _, hdepth.2⟩)
  · obtain ⟨segment, -, hsegment⟩ := List.mem_flatMap.1 hsegments
    obtain ⟨operator, -, rfl⟩ := List.mem_map.1 hsegment
    exact .inr (.inr (.inl ⟨operator, segment, rfl⟩))
  · rw [ofModules, List.mem_ite_nil_right] at hmodules
    obtain ⟨name, -, rfl⟩ := List.mem_map.1 hmodules.2
    exact .inr (.inr (.inr ⟨name, _, rfl⟩))

theorem code_of_mem_ofBlank (h : problem ∈ ofBlank field raw) :
    problem.code = "EmptyRequiredExpression" := by
  simp only [ofBlank, List.mem_ite_nil_right, List.mem_singleton] at h
  rw [h.2]
  rfl

theorem code_of_mem_ofExpressionDepth (h : problem ∈ ofExpressionDepth rules raw) :
    problem.code = "ExpressionTooDeep" := by
  simp only [ofExpressionDepth, List.mem_ite_nil_right, List.mem_singleton] at h
  rw [h.2]
  rfl

theorem code_of_mem_ofSegment {segment : String} (h : problem ∈ ofSegment segment) :
    problem.code = "ForbiddenOperatorInExpression" := by
  obtain ⟨operator, -, rfl⟩ := List.mem_map.1 h
  rfl

theorem code_of_mem_ofModules (h : problem ∈ ofModules rules field raw) :
    problem.code = "UnknownIconModule" := by
  simp only [ofModules, List.mem_ite_nil_right, List.mem_map] at h
  obtain ⟨-, name, -, rfl⟩ := h
  rfl

/-- Of problems with one code, all have it and none has another. -/
theorem filter_code {problems : List Problem} {own : String}
    (h : ∀ problem ∈ problems, problem.code = own) (code : String) :
    problems.filter (·.code = code) = if own = code then problems else [] := by
  split
  · rename_i heq
    apply List.filter_eq_self.2
    intro problem hproblem
    simp [h problem hproblem, heq]
  · rename_i hne
    apply List.filter_eq_nil_iff.2
    intro problem hproblem
    simp [h problem hproblem, hne]

theorem filter_ofExpression (code : String) :
    (ofExpression rules field value).filter (·.code = code) =
      (if "EmptyRequiredExpression" = code then ofBlank field value.render else []) ++
      (if "ExpressionTooDeep" = code then ofExpressionDepth rules value.render else []) ++
      (if "ForbiddenOperatorInExpression" = code then
        (Expression.segments value.render).flatMap ofSegment else []) ++
      (if "UnknownIconModule" = code then ofModules rules field value.render else []) := by
  have hsegments : ∀ problem ∈ (Expression.segments value.render).flatMap ofSegment,
      problem.code = "ForbiddenOperatorInExpression" := by
    intro problem hproblem
    obtain ⟨segment, -, hsegment⟩ := List.mem_flatMap.1 hproblem
    exact code_of_mem_ofSegment hsegment
  rw [ofExpression, List.filter_append, List.filter_append, List.filter_append,
    filter_code fun _ => code_of_mem_ofBlank, filter_code fun _ => code_of_mem_ofExpressionDepth,
    filter_code hsegments, filter_code fun _ => code_of_mem_ofModules]

/-- A problem is found as often as the judgement of its code finds it. -/
theorem count_ofExpression (problem : Problem) :
    (ofExpression rules field value).count problem =
      ((ofExpression rules field value).filter (·.code = problem.code)).count problem := by
  symm
  apply List.count_filter
  simp

/-- The operators are those of the segments. -/
theorem filter_operators :
    (ofExpression rules field value).filter (·.code = "ForbiddenOperatorInExpression") =
      (Expression.segments value.render).flatMap ofSegment := by
  simp [filter_ofExpression]

/-- The unknown modules are those that are referred to. -/
theorem filter_modules :
    (ofExpression rules field value).filter (·.code = "UnknownIconModule") =
      ofModules rules field value.render := by
  simp [filter_ofExpression]

end PanelLayout.Findings
