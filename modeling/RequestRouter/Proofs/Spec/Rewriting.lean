/-
  RequestRouter/Proofs/Spec/Rewriting.lean
  ========================================
  **Literal rewriting changes dots and stars outside groups and nothing else.**

  `spell` works on located pieces and hands out a text.  Said on pieces alone it is `rewritten`: a dot
  outside groups becomes an escape, a star outside groups becomes a group of its own, every other
  piece stays.  Each offset that is handed in and is that of an opening parenthesis comes back as the
  offset of the same parenthesis in the rewritten text (`Moved`), however much longer the text before
  it has become.
-/
import Mathlib.Data.List.Forall2
import RequestRouter.Proofs.Spec.Lexing

namespace RequestRouter.Spec

open RequestRouter.Text

/-- How deep in groups a piece leaves the reader. -/
def Piece.depthAfter (depth : Nat) : Piece → Nat
  | .opening => depth + 1
  | .closing => depth - 1
  | .char _ | .verbatim _ => depth

/-- How deep in groups pieces leave the reader. -/
def depthAfter (depth : Nat) (ps : List Piece) : Nat := ps.foldl Piece.depthAfter depth

/-- What becomes of a piece: a dot outside groups is escaped, a star outside groups is the group of
    any text. -/
def Piece.rewritten (depth : Nat) (p : Piece) : List Piece :=
  if depth = 0 ∧ p = .char '.' then [.verbatim ['\\', '.']]
  else if depth = 0 ∧ p = .char '*' then [.opening, .char '.', .char '*', .closing]
  else [p]

/-- What becomes of pieces, the first one so deep in groups. -/
def rewritten (depth : Nat) : List Piece → List Piece
  | [] => []
  | p :: more => p.rewritten depth ++ rewritten (p.depthAfter depth) more

@[simp] theorem depthAfter_nil (depth : Nat) : depthAfter depth [] = depth := rfl

@[simp] theorem depthAfter_cons (depth : Nat) (p : Piece) (ps : List Piece) :
    depthAfter depth (p :: ps) = depthAfter (p.depthAfter depth) ps := rfl

@[simp] theorem rewritten_nil (depth : Nat) : rewritten depth [] = [] := rfl

@[simp] theorem rewritten_cons (depth : Nat) (p : Piece) (ps : List Piece) :
    rewritten depth (p :: ps) = p.rewritten depth ++ rewritten (p.depthAfter depth) ps := rfl

@[simp] theorem Piece.rewritten_opening (depth : Nat) :
    Piece.rewritten depth .opening = [.opening] := by simp [Piece.rewritten]

@[simp] theorem Piece.rewritten_closing (depth : Nat) :
    Piece.rewritten depth .closing = [.closing] := by simp [Piece.rewritten]

@[simp] theorem Piece.rewritten_succ (depth : Nat) (p : Piece) :
    Piece.rewritten (depth + 1) p = [p] := by simp [Piece.rewritten]

theorem rewritten_append (depth : Nat) (a b : List Piece) :
    rewritten depth (a ++ b) = rewritten depth a ++ rewritten (depthAfter depth a) b := by
  induction a generalizing depth with
  | nil => rfl
  | cons p a ih => simp [ih]

theorem Piece.Whole.rewritten {p : Piece} (h : p.Whole) (depth : Nat) :
    ∀ q ∈ p.rewritten depth, q.Whole := by
  unfold Piece.rewritten
  intro q hq
  split at hq
  · obtain rfl := List.mem_singleton.mp hq
    exact .escape '.'
  · split at hq
    · simp only [List.mem_cons, List.not_mem_nil, or_false] at hq
      rcases hq with rfl | rfl | rfl | rfl
      · exact .opening
      · exact .char (by decide)
      · exact .char (by decide)
      · exact .closing
    · obtain rfl := List.mem_singleton.mp hq
      exact h

/-- What becomes of standing pieces stands. -/
theorem Standing.rewritten {ps : List Piece} (h : Standing ps) (depth : Nat) :
    Standing (rewritten depth ps) := by
  induction ps generalizing depth with
  | nil => trivial
  | cons p ps ih =>
    rcases h.head with hp | ⟨rfl, rfl⟩
    · exact standing_append (hp.rewritten depth) (ih h.tail _)
    · have : Piece.rewritten depth (.char '\\') = [.char '\\'] := by simp [Piece.rewritten]
      rw [rewritten_cons, this]
      exact Or.inr rfl

/-! ### The text of rewritten pieces, and where parentheses move to -/

/-- The parenthesis at one offset of the pieces and the same parenthesis at the other offset of what
    becomes of them. -/
def SameOpening (depth offset written : Nat) (ps : List Piece) (x y : Nat) : Prop :=
  ∃ a b, ps = a ++ .opening :: b ∧ x = offset + utf8Length (textOf a) ∧
    y = written + utf8Length (textOf (rewritten depth a))

/-- Every offset has been moved with its parenthesis. -/
def Moved (depth offset written : Nat) (ps : List Piece) (xs ys : List Nat) : Prop :=
  List.Forall₂ (SameOpening depth offset written ps) xs ys

theorem SameOpening.cons {depth offset written x y : Nat} {p : Piece} {ps : List Piece}
    (h : SameOpening (p.depthAfter depth) (offset + utf8Length p.text)
      (written + utf8Length (textOf (p.rewritten depth))) ps x y) :
    SameOpening depth offset written (p :: ps) x y := by
  obtain ⟨a, b, rfl, rfl, rfl⟩ := h
  refine ⟨p :: a, b, rfl, ?_, ?_⟩
  · simp [Nat.add_assoc]
  · simp [Nat.add_assoc]

/-- The offset of some opening parenthesis. -/
def IsOpening (offset : Nat) (ps : List Piece) (x : Nat) : Prop :=
  ∃ a b, ps = a ++ .opening :: b ∧ x = offset + utf8Length (textOf a)

theorem IsOpening.tail {offset x : Nat} {p : Piece} {ps : List Piece}
    (h : IsOpening offset (p :: ps) x) (hne : ¬ (p = .opening ∧ x = offset)) :
    IsOpening (offset + utf8Length p.text) ps x := by
  obtain ⟨a, b, hab, rfl⟩ := h
  cases a with
  | nil =>
    simp only [List.nil_append, List.cons.injEq] at hab
    exact absurd ⟨hab.1, rfl⟩ hne
  | cons q a =>
    simp only [List.cons_append, List.cons.injEq] at hab
    obtain ⟨rfl, rfl⟩ := hab
    exact ⟨a, b, rfl, by simp [Nat.add_assoc]⟩

theorem IsOpening.le {offset x : Nat} {ps : List Piece} (h : IsOpening offset ps x) :
    offset ≤ x := by
  obtain ⟨a, b, -, rfl⟩ := h
  omega

theorem utf8Size_opening : '('.utf8Size = 1 := rfl

theorem utf8Size_closing : ')'.utf8Size = 1 := rfl

/-- A piece is written as what becomes of it, and no offset moves unless the piece is the parenthesis
    of the next one. -/
theorem spellFrom_cons (depth written at_ : Nat) (p : Piece) (xs : List Nat)
    (more : List (Nat × Piece)) (h : p = .opening → xs.head? ≠ some at_) :
    spellFrom depth written xs ((at_, p) :: more) =
      (textOf (p.rewritten depth) ++ (spellFrom (p.depthAfter depth)
          (written + utf8Length (textOf (p.rewritten depth))) xs more).1,
        (spellFrom (p.depthAfter depth)
          (written + utf8Length (textOf (p.rewritten depth))) xs more).2) := by
  cases p with
  | opening =>
    cases xs with
    | nil => simp [spellFrom, Piece.depthAfter, Piece.text, utf8Size_opening]
    | cons x others =>
      have hx : x ≠ at_ := by simpa using h rfl
      simp [spellFrom, hx, Piece.depthAfter, Piece.text, utf8Size_opening]
  | closing => simp [spellFrom, Piece.depthAfter, Piece.text, utf8Size_closing]
  | char c =>
    have hown : textOf (Piece.rewritten depth (.char c)) =
        (if depth = 0 ∧ Piece.char c = .char '.' then ['\\', '.']
        else if depth = 0 ∧ Piece.char c = .char '*' then ['(', '.', '*', ')']
        else Piece.text (.char c)) := by
      unfold Piece.rewritten
      split
      · rfl
      · split
        · rfl
        · exact List.append_nil _
    rw [hown]
    rfl
  | verbatim text =>
    have hown : Piece.rewritten depth (.verbatim text) = [.verbatim text] := by
      simp [Piece.rewritten]
    rw [hown]
    simp [spellFrom, Piece.depthAfter, Piece.text]

/-- The parenthesis of the next offset is where that offset moves to. -/
theorem spellFrom_opening (depth written at_ : Nat) (xs : List Nat) (more : List (Nat × Piece)) :
    spellFrom depth written (at_ :: xs) ((at_, .opening) :: more) =
      (textOf (Piece.opening.rewritten depth) ++ (spellFrom (Piece.opening.depthAfter depth)
          (written + utf8Length (textOf (Piece.opening.rewritten depth))) xs more).1,
        written :: (spellFrom (Piece.opening.depthAfter depth)
          (written + utf8Length (textOf (Piece.opening.rewritten depth))) xs more).2) := by
  simp [spellFrom, Piece.depthAfter, Piece.text, utf8Size_opening]

/-- **What rewriting writes and where it moves offsets.** -/
theorem spellFrom_locate (ps : List Piece) (depth offset written : Nat) (xs : List Nat)
    (hxs : ∀ x ∈ xs, IsOpening offset ps x) (hascending : xs.Pairwise (· < ·)) :
    (spellFrom depth written xs (locate offset ps)).1 = textOf (rewritten depth ps) ∧
      Moved depth offset written ps xs (spellFrom depth written xs (locate offset ps)).2 := by
  induction ps generalizing depth offset written xs with
  | nil =>
    have : xs = [] := by
      rw [List.eq_nil_iff_forall_not_mem]
      intro x hx
      obtain ⟨a, b, hab, -⟩ := hxs x hx
      simp at hab
    subst this
    exact ⟨rfl, .nil⟩
  | cons p ps ih =>
    -- All offsets but that of a parenthesis that comes first belong to the pieces after it.
    have hlater : ∀ ys, (∀ y ∈ ys, y ∈ xs ∧ ¬ (p = .opening ∧ y = offset)) →
        ys.Pairwise (· < ·) →
        (spellFrom (p.depthAfter depth) (written + utf8Length (textOf (p.rewritten depth))) ys
            (locate (offset + utf8Length p.text) ps)).1 =
          textOf (rewritten (p.depthAfter depth) ps) ∧
        Moved depth offset written (p :: ps) ys
          (spellFrom (p.depthAfter depth) (written + utf8Length (textOf (p.rewritten depth))) ys
            (locate (offset + utf8Length p.text) ps)).2 := by
      intro ys hys hpairwise
      obtain ⟨h1, h2⟩ := ih (p.depthAfter depth) (offset + utf8Length p.text)
        (written + utf8Length (textOf (p.rewritten depth))) ys
        (fun y hy => (hxs y (hys y hy).1).tail (hys y hy).2) hpairwise
      exact ⟨h1, h2.imp fun _ _ h => h.cons⟩
    rw [locate_cons]
    by_cases hhit : p = .opening ∧ xs.head? = some offset
    · obtain ⟨rfl, hhead⟩ := hhit
      obtain ⟨others, rfl⟩ := List.head?_eq_some_iff.mp hhead
      rw [List.pairwise_cons] at hascending
      obtain ⟨h1, h2⟩ := hlater others (by
        intro y hy
        refine ⟨List.mem_cons_of_mem _ hy, ?_⟩
        rintro ⟨-, rfl⟩
        exact Nat.lt_irrefl _ (hascending.1 y hy)) hascending.2
      rw [spellFrom_opening]
      refine ⟨?_, .cons ⟨[], ps, rfl, rfl, rfl⟩ h2⟩
      rw [h1, rewritten_cons, textOf_append]
    · have hmiss : p = .opening → xs.head? ≠ some offset := fun hp hx => hhit ⟨hp, hx⟩
      obtain ⟨h1, h2⟩ := hlater xs (by
        intro y hy
        refine ⟨hy, ?_⟩
        rintro ⟨hp, rfl⟩
        -- An offset at the front that comes later in the list would have an earlier one below it.
        cases xs with
        | nil => cases hy
        | cons x others =>
          rcases List.mem_cons.mp hy with rfl | hy
          · exact hmiss hp rfl
          · have hlt := (List.pairwise_cons.mp hascending).1 y hy
            have hle := (hxs x List.mem_cons_self).le
            omega) hascending
      rw [spellFrom_cons _ _ _ _ _ _ hmiss]
      refine ⟨?_, h2⟩
      rw [h1, rewritten_cons, textOf_append]

end RequestRouter.Spec
