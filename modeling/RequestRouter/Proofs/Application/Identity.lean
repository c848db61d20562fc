/-
  RequestRouter/Proofs/Application/Identity.lean
  ==============================================
  **A table is shown again until a teardown, or a reload with other settings, takes its place.**

  Tables are numbered as they are built, so two that were built apart are never taken for one another,
  however alike they are.  The table with a number is either kept (`Keeps`) or gone (`IsPast`): gone
  once there is no table or a later one, and then for good, since numbers only grow.  One call keeps
  the table unless it supersedes it (`perform_keeps`, `perform_supersedes`); what supersedes are
  teardowns and accepted reloads with settings that are not in force.
-/
import Mathlib.Tactic.ByContra
import RequestRouter.Proofs.Application.Runs

namespace RequestRouter.Application

variable {S : Type} {app : Application S} {loaded : LoadedTable S} {serial : Nat}

/-! ### What a call leaves -/

/-- A request leaves what asking for the table leaves. -/
theorem handle_left (app : Application S) (request : Http.Request) (s : S) :
    (app.handle request s).2.2 = app.table.2 := by
  have hdispatch : (app.dispatch request s).2 = app.table.2 := by
    rw [dispatch]
    rcases app.table with ⟨result, after⟩
    cases result <;> rfl
  exact hdispatch

/-- A call leaves the application as it was, or without its table, or with a table that it built,
    for settings that it may have put in force. -/
theorem perform_left (app : Application S) (s : S) (call : Call) :
    (app.perform s call).left = app ∨ (app.perform s call).left = app.teardown ∨
      ∃ routing assets t, (app.perform s call).left =
        ({ app with routing := routing, assets := assets } : Application S).withTable t := by
  have hshown : app.table.2 = app ∨ ∃ t, app.table.2 = app.withTable t := by
    rcases app.table_cases with ⟨loaded, -, htable⟩ | ⟨-, e, -, htable⟩ | ⟨-, t, -, htable⟩
    · exact .inl (congrArg Prod.snd htable)
    · exact .inl (congrArg Prod.snd htable)
    · exact .inr ⟨t, congrArg Prod.snd htable⟩
  cases call with
  | table => exact hshown.imp_right fun ⟨t, ht⟩ => .inr ⟨app.routing, app.assets, t, ht⟩
  | handle request =>
    change (app.handle request s).2.2 = app ∨ _
    rw [← handle_left app request s] at hshown
    exact hshown.imp_right fun ⟨t, ht⟩ => .inr ⟨app.routing, app.assets, t, ht⟩
  | reload routing =>
    rcases app.reload_cases routing with ⟨-, -, hreload⟩ | ⟨e, -, hreload⟩ | ⟨t, -, hreload⟩
    · exact .inl (congrArg Prod.snd hreload)
    · exact .inl (congrArg Prod.snd hreload)
    · exact .inr (.inr ⟨routing, _, t, congrArg Prod.snd hreload⟩)
  | teardown => exact .inr (.inl rfl)

/-- Calls in two parts. -/
theorem run_append (app : Application S) (s : S) (calls more : List Call) :
    (app.run s (calls ++ more)).left =
      ((app.run s calls).left.run (app.run s calls).state more).left := by
  induction calls generalizing app s with
  | nil => rfl
  | cons call calls ih => exact ih (app.perform s call).left (app.perform s call).state

/-! ### Numbers -/

/-- The number of the table is one of those that were given. -/
def Numbered (app : Application S) : Prop :=
  ∀ loaded, app.loaded = some loaded → loaded.serial < app.builds

theorem numbered_of_none (h : app.loaded = none) : app.Numbered := by
  intro loaded hloaded
  rw [h] at hloaded
  cases hloaded

theorem numbered_withTable (app : Application S) (table : Table S) :
    (app.withTable table).Numbered := by
  rintro _ ⟨⟩
  exact Nat.lt_succ_self app.builds

theorem numbered_perform (h : app.Numbered) (s : S) (call : Call) :
    (app.perform s call).left.Numbered := by
  rcases app.perform_left s call with hleft | hleft | ⟨routing, assets, t, hleft⟩
  · rw [hleft]
    exact h
  · rw [hleft]
    exact numbered_of_none rfl
  · rw [hleft]
    exact numbered_withTable _ t

theorem numbered_run (h : app.Numbered) (s : S) (calls : List Call) :
    (app.run s calls).left.Numbered := by
  induction calls generalizing app s with
  | nil => exact h
  | cons call more ih => exact ih (numbered_perform h s call) (app.perform s call).state

/-! ### Kept or gone -/

/-- The table is there, and the next one will have a later number. -/
structure Keeps (loaded : LoadedTable S) (app : Application S) : Prop where
  there : app.loaded = some loaded
  numbered : loaded.serial < app.builds

/-- The number is given, and there is no table unless it has a later one. -/
structure IsPast (serial : Nat) (app : Application S) : Prop where
  given : serial < app.builds
  later : ∀ loaded, app.loaded = some loaded → serial < loaded.serial

/-- A call after which a table has to be built. -/
def Supersedes (app : Application S) : Call → Prop
  | .teardown => True
  | .reload routing => (app.reload routing).1 = .ok () ∧ routing ≠ app.routing
  | .table | .handle _ => False

theorem Keeps.table (h : Keeps loaded app) : app.table = (.ok loaded, app) := by
  rw [Application.table, h.there]

/-- A table that is shown is kept. -/
theorem keeps_of_table (h : app.Numbered) (hshown : app.table.1 = .ok loaded) :
    Keeps loaded app.table.2 := by
  rcases app.table_cases with ⟨loaded', hloaded, htable⟩ | ⟨-, e, -, htable⟩ | ⟨-, t, -, htable⟩
  · rw [htable] at hshown ⊢
    obtain rfl := Except.ok.inj hshown
    exact ⟨hloaded, h loaded' hloaded⟩
  · rw [htable] at hshown
    cases hshown
  · rw [htable] at hshown ⊢
    obtain rfl := Except.ok.inj hshown
    exact ⟨rfl, Nat.lt_succ_self app.builds⟩

theorem isPast_of_none (hgiven : serial < app.builds) (h : app.loaded = none) :
    IsPast serial app := by
  refine ⟨hgiven, fun loaded hloaded => ?_⟩
  rw [h] at hloaded
  cases hloaded

theorem isPast_withTable (app : Application S) (hgiven : serial < app.builds) (table : Table S) :
    IsPast serial (app.withTable table) where
  given := Nat.lt_succ_of_lt hgiven
  later := by
    rintro _ ⟨⟩
    exact hgiven

/-- If a table is shown, it has another number. -/
theorem IsPast.serial_ne (h : IsPast serial app) {again : LoadedTable S}
    (hshown : app.table.1 = .ok again) : again.serial ≠ serial := by
  rcases app.table_cases with ⟨loaded, hloaded, htable⟩ | ⟨-, e, -, htable⟩ | ⟨-, t, -, htable⟩
  · rw [htable] at hshown
    obtain rfl := Except.ok.inj hshown
    exact Nat.ne_of_gt (h.later loaded hloaded)
  · rw [htable] at hshown
    cases hshown
  · rw [htable] at hshown
    obtain rfl := Except.ok.inj hshown
    exact Nat.ne_of_gt h.given

/-! ### One call -/

theorem perform_keeps (h : Keeps loaded app) (s : S) {call : Call}
    (hcall : ¬ app.Supersedes call) : Keeps loaded (app.perform s call).left := by
  cases call with
  | table =>
    change Keeps loaded app.table.2
    rw [h.table]
    exact h
  | handle request =>
    change Keeps loaded (app.handle request s).2.2
    rw [handle_left, h.table]
    exact h
  | reload routing =>
    change Keeps loaded (app.reload routing).2
    rcases app.reload_cases routing with ⟨-, -, hreload⟩ | ⟨e, -, hreload⟩ | ⟨t, -, hreload⟩
    · rw [hreload]
      exact h
    · rw [hreload]
      exact h
    · -- Accepted, so the settings are in force; then nothing was built, there being a table.
      have hsame : routing = app.routing := by
        by_contra hother
        exact hcall ⟨by rw [hreload], hother⟩
      have hunchanged : app.reload routing = (.ok (), app) := by
        rw [reload, if_pos ⟨hsame.symm, by rw [h.there]; rfl⟩]
      rw [hunchanged]
      exact h
  | teardown => exact absurd trivial hcall

theorem perform_supersedes (h : Keeps loaded app) (s : S) {call : Call}
    (hcall : app.Supersedes call) : IsPast loaded.serial (app.perform s call).left := by
  cases call with
  | table => exact hcall.elim
  | handle request => exact hcall.elim
  | reload routing =>
    obtain ⟨haccepted, hother⟩ := hcall
    change IsPast loaded.serial (app.reload routing).2
    rcases app.reload_cases routing with ⟨hsame, -, -⟩ | ⟨e, -, hreload⟩ | ⟨t, -, hreload⟩
    · exact absurd hsame.symm hother
    · rw [hreload] at haccepted
      cases haccepted
    · rw [hreload]
      refine isPast_withTable _ ?_ t
      exact h.numbered
  | teardown => exact isPast_of_none h.numbered rfl

theorem perform_past (h : IsPast serial app) (s : S) (call : Call) :
    IsPast serial (app.perform s call).left := by
  rcases app.perform_left s call with hleft | hleft | ⟨routing, assets, t, hleft⟩
  · rw [hleft]
    exact h
  · rw [hleft]
    exact isPast_of_none h.given rfl
  · rw [hleft]
    refine isPast_withTable _ ?_ t
    exact h.given

/-! ### Runs -/

theorem run_past (h : IsPast serial app) (s : S) (calls : List Call) :
    IsPast serial (app.run s calls).left := by
  induction calls generalizing app s with
  | nil => exact h
  | cons call more ih => exact ih (perform_past h s call) (app.perform s call).state

/-- A table is kept by calls none of which supersedes it when its turn comes, and gone after others. -/
theorem run_keeps_or_past (h : Keeps loaded app) (s : S) (calls : List Call) :
    (Keeps loaded (app.run s calls).left ∧ ∀ earlier call later, calls = earlier ++ call :: later →
      ¬ (app.run s earlier).left.Supersedes call) ∨
    (IsPast loaded.serial (app.run s calls).left ∧ ∃ earlier call later,
      calls = earlier ++ call :: later ∧ (app.run s earlier).left.Supersedes call) := by
  induction calls generalizing app s with
  | nil => exact .inl ⟨h, fun _ _ _ hsplit => absurd hsplit.symm (by simp)⟩
  | cons call more ih =>
    by_cases hcall : app.Supersedes call
    · exact .inr ⟨run_past (perform_supersedes h s hcall) _ more, [], call, more, rfl, hcall⟩
    · refine (ih (perform_keeps h s hcall) (app.perform s call).state).imp ?_ ?_
      · rintro ⟨hkeeps, hnone⟩
        refine ⟨hkeeps, fun earlier x later hsplit => ?_⟩
        cases earlier with
        | nil =>
          obtain ⟨rfl, -⟩ := List.cons.inj hsplit
          exact hcall
        | cons y earlier =>
          obtain ⟨rfl, hrest⟩ := List.cons.inj hsplit
          exact hnone earlier x later hrest
      · rintro ⟨hpast, earlier, x, later, rfl, hsupersedes⟩
        exact ⟨hpast, call :: earlier, x, later, rfl, hsupersedes⟩

/-- **A table is built anew exactly when it has to be.**  An application of controllers showed a table
    at some call of a run.  After any further calls it shows the table of that number again iff none of
    them was a teardown, and every reload of them that was answered without an error had the settings
    that were in force at its turn.  What it shows under that number is the table itself. -/
theorem run_shows_again (first : RoutingConfig) (controllers : List (Controller S))
    (hooks : Hooks S) (s : S) (before between : List Call) (loaded : LoadedTable S) :
    let after := fun calls => ((ofControllers first controllers hooks).run s calls).left
    (after before).table.1 = .ok loaded →
      ((∃ again, (after (before ++ .table :: between)).table.1 = .ok again ∧
          again.serial = loaded.serial) ↔
        .teardown ∉ between ∧ ∀ earlier routing later, between = earlier ++ .reload routing :: later →
          ((after (before ++ .table :: earlier)).reload routing).1 = .ok () →
          routing = (after (before ++ .table :: earlier)).routing) ∧
      ∀ again, (after (before ++ .table :: between)).table.1 = .ok again →
        again.serial = loaded.serial → again = loaded := by
  intro after hshown
  have hnumbered : (after before).Numbered := numbered_run (numbered_of_none rfl) s before
  have hkeeps := keeps_of_table hnumbered hshown
  have hafter : ∀ calls, after (before ++ .table :: calls) = ((after before).table.2.run
      ((ofControllers first controllers hooks).run s before).state calls).left :=
    fun calls => run_append (ofControllers first controllers hooks) s before (.table :: calls)
  simp only [hafter]
  rcases run_keeps_or_past hkeeps _ between with
    ⟨hkept, hnone⟩ | ⟨hpast, earlier, call, later, rfl, hsupersedes⟩
  · have hagain := congrArg Prod.fst hkept.table
    refine ⟨⟨fun _ => ⟨?_, ?_⟩, fun _ => ⟨loaded, hagain, rfl⟩⟩, ?_⟩
    · intro hmem
      obtain ⟨earlier, later, hsplit⟩ := List.append_of_mem hmem
      exact hnone earlier .teardown later hsplit trivial
    · intro earlier routing later hsplit haccepted
      by_contra hother
      exact hnone earlier (.reload routing) later hsplit ⟨haccepted, hother⟩
    · intro again hshown' _
      exact Except.ok.inj (hshown'.symm.trans hagain)
  · refine ⟨⟨?_, ?_⟩, fun again hshown' hsame => absurd hsame (hpast.serial_ne hshown')⟩
    · rintro ⟨again, hshown', hsame⟩
      exact absurd hsame (hpast.serial_ne hshown')
    · rintro ⟨hteardown, hreload⟩
      cases call with
      | table => exact hsupersedes.elim
      | handle request => exact hsupersedes.elim
      | reload routing => exact absurd (hreload earlier routing later rfl hsupersedes.1) hsupersedes.2
      | teardown => exact absurd (List.mem_append_right earlier List.mem_cons_self) hteardown

/-- Neither settings that are in force nor a reload that fails take the place of a table; a teardown
    does. -/
theorem run_shows_again_twice :
    ∃ loaded, (ofControllers {} [twice] Hooks.standard).table.1 = .ok loaded ∧
      (∃ again, ((ofControllers {} [twice] Hooks.standard).run ()
          [.table, .reload {}, .reload onceOnly]).left.table.1 = .ok again ∧
        again.serial = loaded.serial) ∧
      ¬ ∃ again, ((ofControllers {} [twice] Hooks.standard).run ()
          [.table, .teardown]).left.table.1 = .ok again ∧ again.serial = loaded.serial := by
  have hok : (ofControllers {} [twice] Hooks.standard).table.1.isOk = true := by decide +kernel
  cases hshown : (ofControllers {} [twice] Hooks.standard).table.1 with
  | error e =>
    rw [hshown] at hok
    cases hok
  | ok loaded =>
    have hagain := run_shows_again {} [twice] Hooks.standard () [] [.reload {}, .reload onceOnly]
      loaded hshown
    have hanew := run_shows_again {} [twice] Hooks.standard () [] [.teardown] loaded hshown
    refine ⟨loaded, rfl, hagain.1.mpr ⟨by decide, ?_⟩, fun h => (hanew.1.mp h).1 List.mem_cons_self⟩
    intro earlier routing later hsplit haccepted
    obtain _ | ⟨first, _ | ⟨second, earlier⟩⟩ := earlier
    · obtain ⟨hrouting, -⟩ := List.cons.inj hsplit
      cases hrouting
      decide +kernel
    · obtain ⟨rfl, hrest⟩ := List.cons.inj hsplit
      obtain ⟨hrouting, -⟩ := List.cons.inj hrest
      cases hrouting
      exact absurd (congrArg Except.isOk haccepted) (by decide +kernel)
    · simp at hsplit

end RequestRouter.Application
