/-
  RequestRouter/Proofs/Binding.lean
  =================================
  **Which values are bound from their printed forms.**

  Whole numbers, truth values, characters and texts have a printed form (`ScalarType.Writes`).  Reading
  it gives the value back with one exception: blanks around a text are ignored, and of a character that
  is a blank nothing is left then (`bindOne_of_writes`).  Arguments of one value, of one that may be
  missing and of many differ in which values they look at, and are bound from printed forms exactly if
  none of these values is a blank (`bind_printed_iff`).
-/
import Mathlib.Data.List.Forall2
import RequestRouter.Proofs.Number.Printed

namespace RequestRouter

open RequestRouter.Number RequestRouter.Unicode

/-! ### Printed forms -/

/-- A value of a type and its printed form.  Only floating-point numbers have none here. -/
inductive ScalarType.Writes : ScalarType → Scalar → String → Prop
  | whole {signed : Bool} {bits : Nat} {n : Int} (h : (Range.ofBits signed bits).Holds n) :
    Writes (.whole signed bits) (.whole n) (toString n)
  | address {signed : Bool} {n : Int} (h : (Range.ofBits signed 64).Holds n) :
    Writes (.address signed) (.whole n) (toString n)
  | char (c : Char) : Writes .char (.char c) (String.singleton c)
  | bool (b : Bool) : Writes .bool (.bool b) (toString b)
  | text (s : String) : Writes .text (.text s) s

/-- Whether a value is a character that is a blank. -/
def Scalar.isBlank : Scalar → Bool
  | .char c => isSpace c
  | _ => false

/-- Why a blank is not read as a character. -/
def emptyChar : String := "cannot parse char from empty string"

theorem readScalarWhole_toString {signed : Bool} {bits : Nat} {n : Int}
    (h : (Range.ofBits signed bits).Holds n) :
    readScalarWhole (.ofBits signed bits) (Text.trimChars (toString n).toList) =
      .ok (.whole n) := by
  rw [trimChars_of_not_isSpace (isSpace_toString n), readScalarWhole,
    readWhole_toString below_ofBits h]

/-- A character is read back unless it is a blank. -/
theorem read_singleton (c : Char) :
    ScalarType.char.read (String.singleton c) =
      if isSpace c then .error emptyChar else .ok (.char c) := by
  have hchars : (String.singleton c).toList = [c] := by simp
  rw [ScalarType.read, hchars]
  split
  · next hblank =>
    rw [Text.trimChars_of_isBlank (by simpa [Text.isBlank] using hblank)]
    rfl
  · next hblank =>
    rw [trimChars_of_not_isSpace (by simpa using hblank)]
    rfl

theorem read_of_writes {t : ScalarType} {v : Scalar} {raw : String} (h : t.Writes v raw) :
    t.read raw = if v.isBlank then .error emptyChar else .ok v := by
  cases h with
  | whole h => exact readScalarWhole_toString h
  | address h => exact readScalarWhole_toString h
  | char c => exact read_singleton c
  | bool b => cases b <;> decide +kernel
  | text s => rfl

/-- A printed value is bound to itself, unless it is a blank. -/
theorem bindOne_of_writes {t : ScalarType} {v : Scalar} {raw : String} (h : t.Writes v raw)
    (source : String) :
    t.bindOne source raw = if v.isBlank then .error (.invalid source raw t emptyChar) else .ok v := by
  rw [ScalarType.bindOne, read_of_writes h]
  cases v.isBlank <;> rfl

/-! ### Many values -/

theorem bindAll_of_writes {t : ScalarType} {vs : List Scalar} {raws : List String}
    (h : List.Forall₂ t.Writes vs raws) (source : String)
    (hblank : ∀ v ∈ vs, v.isBlank = false) : t.bindAll source raws = .ok vs := by
  induction h with
  | nil => rfl
  | cons hwrites hmore ih =>
    obtain ⟨hv, hrest⟩ := List.forall_mem_cons.mp hblank
    rw [ScalarType.bindAll, bindOne_of_writes hwrites, hv, if_neg Bool.false_ne_true, ih hrest]
    rfl

/-- The first blank among the values is the one that is complained about. -/
theorem bindAll_of_blank {t : ScalarType} {vs : List Scalar} {raws : List String}
    (h : List.Forall₂ t.Writes vs raws) (source : String)
    (hblank : ∃ v ∈ vs, v.isBlank = true) :
    ∃ raw ∈ raws, t.bindAll source raws = .error (.invalid source raw t emptyChar) := by
  induction h with
  | nil => simp at hblank
  | @cons v raw vs raws hwrites hmore ih =>
    rw [ScalarType.bindAll, bindOne_of_writes hwrites]
    cases hv : v.isBlank with
    | true => exact ⟨raw, List.mem_cons_self, rfl⟩
    | false =>
      have hrest : ∃ v ∈ vs, v.isBlank = true := by
        obtain ⟨w, hw, hwblank⟩ := hblank
        rcases List.mem_cons.mp hw with rfl | hw
        · rw [hv] at hwblank
          exact absurd hwblank Bool.false_ne_true
        · exact ⟨w, hw, hwblank⟩
      obtain ⟨bad, hbad, herror⟩ := ih hrest
      refine ⟨bad, List.mem_cons_of_mem raw hbad, ?_⟩
      rw [if_neg Bool.false_ne_true, herror]
      rfl

/-! ### Arguments -/

/-- A first text that is not empty is bound as one that may not be missing. -/
theorem bind_optional_cons {t : ScalarType} {raw : String} (h : raw ≠ "") (source : String)
    (raws : List String) :
    ArgumentType.bind ⟨.optional, t⟩ source (raw :: raws) =
      (t.bindOne source raw).map fun v => .optional (some v) := by
  have hsome : ¬ raw.isEmpty = true := by simpa using h
  exact if_neg hsome

/-- **Which arguments are bound from printed forms.**  Many values are, exactly if none of them is a
    blank, and else a blank is complained about.  The first value alone is, exactly if it is no blank,
    also where it may be missing, provided that its printed form is not empty. -/
theorem bind_printed_iff {t : ScalarType} {vs : List Scalar} {raws : List String}
    (h : List.Forall₂ t.Writes vs raws) (source : String) :
    (ArgumentType.bind ⟨.many, t⟩ source raws = .ok (.many vs) ↔ ∀ v ∈ vs, v.isBlank = false) ∧
      ((∃ v ∈ vs, v.isBlank = true) → ∃ raw ∈ raws,
        ArgumentType.bind ⟨.many, t⟩ source raws = .error (.invalid source raw t emptyChar)) ∧
      ∀ v ∈ vs.head?,
        (ArgumentType.bind ⟨.one, t⟩ source raws = .ok (.one v) ↔ v.isBlank = false) ∧
          (raws.head? ≠ some "" →
            (ArgumentType.bind ⟨.optional, t⟩ source raws = .ok (.optional (some v)) ↔
              v.isBlank = false)) := by
  have hblanks : (∃ v ∈ vs, v.isBlank = true) → ∃ raw ∈ raws,
      ArgumentType.bind ⟨.many, t⟩ source raws = .error (.invalid source raw t emptyChar) := by
    intro hblank
    obtain ⟨raw, hraw, herror⟩ := bindAll_of_blank h source hblank
    exact ⟨raw, hraw, congrArg (Except.map Argument.many) herror⟩
  refine ⟨⟨?_, ?_⟩, hblanks, ?_⟩
  · intro hbind v hv
    rw [Bool.eq_false_iff]
    intro hblank
    obtain ⟨raw, -, herror⟩ := hblanks ⟨v, hv, hblank⟩
    rw [hbind] at herror
    cases herror
  · intro hblank
    exact congrArg (Except.map Argument.many) (bindAll_of_writes h source hblank)
  · intro v hv
    cases h with
    | nil => cases hv
    | @cons w raw vs raws hwrites hmore =>
      obtain rfl : w = v := Option.some.inj hv
      constructor
      · change (t.bindOne source raw).map Argument.one = _ ↔ _
        rw [bindOne_of_writes hwrites]
        cases w.isBlank <;> simp [Except.map]
      · intro hsome
        rw [bind_optional_cons (fun hempty => hsome (congrArg some hempty)),
          bindOne_of_writes hwrites]
        cases w.isBlank <;> simp [Except.map]

/-- The least and the greatest number of eight bits, and characters of which one is a blank. -/
theorem bind_printed_iff_mixed :
    (List.Forall₂ (ScalarType.whole true 8).Writes [.whole (-128), .whole 127] ["-128", "127"] ∧
        ArgumentType.bind ⟨.many, .whole true 8⟩ "n" ["-128", "127"] =
          .ok (.many [.whole (-128), .whole 127])) ∧
      List.Forall₂ ScalarType.char.Writes [.char 'A', .char ' '] ["A", " "] ∧
        ArgumentType.bind ⟨.many, .char⟩ "c" ["A", " "] ≠ .ok (.many [.char 'A', .char ' ']) ∧
        ArgumentType.bind ⟨.optional, .char⟩ "c" ["A", " "] = .ok (.optional (some (.char 'A'))) := by
  have hnumbers : List.Forall₂ (ScalarType.whole true 8).Writes [.whole (-128), .whole 127]
      ["-128", "127"] :=
    .cons (.whole (by decide)) (.cons (.whole (by decide)) .nil)
  have hchars : List.Forall₂ ScalarType.char.Writes [.char 'A', .char ' '] ["A", " "] :=
    .cons (.char 'A') (.cons (.char ' ') .nil)
  refine ⟨⟨hnumbers, (bind_printed_iff hnumbers "n").1.mpr (by decide)⟩, hchars, ?_, ?_⟩
  · intro hbind
    exact absurd ((bind_printed_iff hchars "c").1.mp hbind) (by decide)
  · exact (((bind_printed_iff hchars "c").2.2 (.char 'A') rfl).2 (by decide)).mpr (by decide)

/-- A blank is not bound from its printed form. -/
theorem bind_refuses_blank :
    ¬ ∀ (t : ScalarType) (source : String) (vs : List Scalar) (raws : List String),
      List.Forall₂ t.Writes vs raws → ArgumentType.bind ⟨.many, t⟩ source raws = .ok (.many vs) := by
  intro hall
  have hbind := hall .char "c" [.char ' '] [" "] (.cons (.char ' ') .nil)
  cases hbind

end RequestRouter
