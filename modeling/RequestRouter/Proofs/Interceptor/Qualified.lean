/-
  RequestRouter/Proofs/Interceptor/Qualified.lean
  ===============================================
  **A bare action rule means the rule qualified with the name of the controller.**

  A bare rule is compared with the action alone, a qualified one with controller and action in one
  name.  For the actions of a controller they decide alike (`admits_qualified`).  The name in front
  stands for itself as long as it has no wildcards, so both scans come to the action with the same
  text and the same pattern left, and with no star behind them to go back to.  The name must not
  start with a blank, which would be trimmed off the rule, nor have a slash, which would make it a
  rule for paths.
-/
import RequestRouter.Interceptor.Basic
import RequestRouter.Proofs.Glob
import RequestRouter.Proofs.Text.Blank

namespace RequestRouter

open RequestRouter.Unicode

namespace ScopeRule

/-! ### Texts of rules -/

/-- The text of a rule for bare actions, with nothing blank around it. -/
structure IsBare (rule : String) : Prop where
  nonempty : rule ≠ ""
  first : ∀ c ∈ rule.toList.head?, isSpace c = false
  last : ∀ c ∈ rule.toList.getLast?, isSpace c = false
  slash : '/' ∉ rule.toList
  dot : '.' ∉ rule.toList

/-- The name of a controller that stands for itself in front of a rule. -/
structure IsQualifier (name : String) : Prop where
  nonempty : name ≠ ""
  first : ∀ c ∈ name.toList.head?, isSpace c = false
  plain : '*' ∉ name.toList ∧ '?' ∉ name.toList
  slash : '/' ∉ name.toList

/-! ### How the two rules are read -/

theorem ofText?_of_dotless {rule : String} (hnonempty : rule ≠ "") (htrim : Text.trim rule = rule)
    (hslash : '/' ∉ rule.toList) (hdot : '.' ∉ rule.toList) :
    ofText? rule = some (.action (.ignoringCase rule)) := by
  simp [ofText?, htrim, hnonempty, hslash, hdot]

theorem ofText?_of_dotted {rule : String} (htrim : Text.trim rule = rule)
    (hslash : '/' ∉ rule.toList) (hdot : '.' ∈ rule.toList) :
    ofText? rule = some (.qualified (.ignoringCase rule)) := by
  have hnonempty : rule ≠ "" := by
    rintro rfl
    exact absurd hdot (by decide)
  simp [ofText?, htrim, hnonempty, hslash, hdot]

variable {name rule : String}

theorem IsBare.ofText? (h : IsBare rule) :
    ScopeRule.ofText? rule = some (.action (.ignoringCase rule)) :=
  ofText?_of_dotless h.nonempty (Text.trim_of_ends h.first h.last) h.slash h.dot

theorem IsQualifier.ofText? (hname : IsQualifier name) (hrule : IsBare rule) :
    ScopeRule.ofText? (name ++ "." ++ rule) =
      some (.qualified (.ignoringCase (name ++ "." ++ rule))) := by
  have hchars : (name ++ "." ++ rule).toList = name.toList ++ '.' :: rule.toList := by simp
  obtain ⟨c, hc⟩ : ∃ c, name.toList.head? = some c := by
    simpa [← Option.isSome_iff_exists] using hname.nonempty
  obtain ⟨d, hd⟩ : ∃ d, rule.toList.getLast? = some d := by
    simpa [← Option.isSome_iff_exists] using hrule.nonempty
  apply ofText?_of_dotted
  · apply Text.trim_of_ends
    · rw [hchars, List.head?_append, hc]
      simpa using hname.first c hc
    · rw [hchars, List.getLast?_append, List.getLast?_cons, hd]
      simpa using hrule.last d hd
  · rw [hchars]
    simp [hname.slash, hrule.slash]
  · rw [hchars]
    simp

/-! ### What they take in -/

/-- For the actions of its controller a bare rule is as good as the qualified one. -/
theorem admits_qualified (hname : IsQualifier name) (rule action path : String) :
    (ScopeRule.qualified (.ignoringCase (name ++ "." ++ rule))).admits ⟨name, action⟩ path =
      (ScopeRule.action (.ignoringCase rule)).admits ⟨name, action⟩ path := by
  have hstem : '*' ∉ (name ++ ".").toList ∧ '?' ∉ (name ++ ".").toList := by
    simpa using hname.plain
  exact Glob.matchesText_behind hstem

end ScopeRule

namespace Interceptor

variable {S : Type} {text : String} {rule : ScopeRule}

/-- A rule that is named counts beside those named before. -/
theorem appliesTo_onlyFor (h : ScopeRule.ofText? text = some rule) (i : Interceptor S)
    (target : Target) (path : String) :
    (i.onlyFor [text]).appliesTo target path =
      (!i.scope.excepted.any (·.admits target path) &&
        (i.scope.named.any (·.admits target path) || rule.admits target path)) := by
  have hnamed : (i.onlyFor [text]).scope.named = i.scope.named ++ [rule] := by
    rw [onlyFor, List.filterMap_cons_some h, List.filterMap_nil]
  have hsome : (i.scope.named ++ [rule]).isEmpty = false :=
    List.isEmpty_eq_false_iff.mpr (List.append_ne_nil_of_right_ne_nil _ (List.cons_ne_nil _ _))
  rw [appliesTo, Scope.admits, hnamed, hsome, Bool.false_or, List.any_append, List.any_cons,
    List.any_nil, Bool.or_false]
  rfl

/-- A rule that is excepted leaves out what it takes in, and nothing else. -/
theorem appliesTo_exceptFor (h : ScopeRule.ofText? text = some rule) (i : Interceptor S)
    (target : Target) (path : String) :
    (i.exceptFor [text]).appliesTo target path =
      (i.appliesTo target path && !rule.admits target path) := by
  have hexcepted : (i.exceptFor [text]).scope.excepted = i.scope.excepted ++ [rule] := by
    rw [exceptFor, List.filterMap_cons_some h, List.filterMap_nil]
  rw [appliesTo, appliesTo, Scope.admits, Scope.admits, hexcepted, List.any_append, List.any_cons,
    List.any_nil, Bool.or_false, Bool.not_or]
  exact Bool.and_right_comm _ _ _

/-- **A bare rule and the rule qualified with the name of the controller are for the same actions.**
    Let the name of a controller not be empty and have neither a blank in front nor wildcards nor
    slashes, and let a rule for bare actions have no blanks around it.  Then whatever the interceptor
    was scoped to before, naming the one rule or the other makes it apply to the same actions of the
    controller, and so does excepting the one or the other; whatever wildcards are in the rule, and
    whatever characters in the action. -/
theorem appliesTo_qualified {controller rule : String} (hname : ScopeRule.IsQualifier controller)
    (hrule : ScopeRule.IsBare rule) (i : Interceptor S) (action path : String) :
    (i.onlyFor [rule]).appliesTo ⟨controller, action⟩ path =
        (i.onlyFor [controller ++ "." ++ rule]).appliesTo ⟨controller, action⟩ path ∧
      (i.exceptFor [rule]).appliesTo ⟨controller, action⟩ path =
        (i.exceptFor [controller ++ "." ++ rule]).appliesTo ⟨controller, action⟩ path := by
  have hadmits := ScopeRule.admits_qualified hname rule action path
  constructor
  · rw [appliesTo_onlyFor hrule.ofText?, appliesTo_onlyFor (hname.ofText? hrule), hadmits]
  · rw [appliesTo_exceptFor hrule.ofText?, appliesTo_exceptFor (hname.ofText? hrule), hadmits]

/-- The scan comes back to the star of the rule; the action has a star and a slash of its own, and the
    name of the controller a dot. -/
theorem appliesTo_qualified_shop :
    ScopeRule.IsQualifier "Shop.Users" ∧ ScopeRule.IsBare "e?I*t" ∧
      ((Interceptor.before "guard" (Left.done .pass) : Interceptor Unit).onlyFor
        ["Shop.Users.e?I*t"]).appliesTo ⟨"Shop.Users", "Edit*/it"⟩ "/" = true ∧
      ((Interceptor.before "guard" (Left.done .pass) : Interceptor Unit).exceptFor
        ["Shop.Users.e?I*t"]).appliesTo ⟨"Shop.Users", "Edit*/it"⟩ "/" = false := by
  have hname : ScopeRule.IsQualifier "Shop.Users" := by
    refine ⟨by decide, ?_, by decide, by decide⟩
    rintro c ⟨⟩
    decide
  have hrule : ScopeRule.IsBare "e?I*t" := by
    refine ⟨by decide, ?_, ?_, by decide, by decide⟩
    · rintro c ⟨⟩
      decide
    · rintro c ⟨⟩
      decide
  have hmatches : (Glob.ignoringCase "e?I*t").matchesText "Edit*/it" = true := by
    have hpattern : Glob.folded false "e?I*t" = ['e', '?', 'i', '*', 't'] := by decide
    have htext : Glob.folded false "Edit*/it" = ['e', 'd', 'i', 't', '*', '/', 'i', 't'] := by decide
    apply Glob.matchesText_iff.mpr
    change Glob.Reads (Glob.folded false "e?I*t") (Glob.folded false "Edit*/it")
    rw [hpattern, htext, Glob.reads_same (.inr rfl), Glob.reads_same (.inl rfl),
      Glob.reads_same (.inr rfl), Glob.reads_star (by decide)]
    exact ⟨['t', '*', '/', 'i'], ['t'], rfl, by simp [Glob.Reads]⟩
  obtain ⟨honly, hexcept⟩ := appliesTo_qualified hname hrule
    (Interceptor.before "guard" (Left.done .pass) : Interceptor Unit) "Edit*/it" "/"
  refine ⟨hname, hrule, honly.symm.trans ?_, hexcept.symm.trans ?_⟩
  · rw [appliesTo_onlyFor hrule.ofText?, ScopeRule.admits, hmatches]
    rfl
  · rw [appliesTo_exceptFor hrule.ofText?, ScopeRule.admits, hmatches]
    rfl

end Interceptor

end RequestRouter
