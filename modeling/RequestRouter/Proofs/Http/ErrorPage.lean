/-
  RequestRouter/Proofs/Http/ErrorPage.lean
  ========================================
  **The error page cannot be broken out of, and tells its reason exactly.**

  A reason stands between two fixed pieces of the page.  The characters that could end its element are
  written as entities, and so is the ampersand, so that every ampersand of the page starts an entity
  (`isEscaped_htmlChars`).  A reader that goes once from the left takes each entity for its character
  and never looks at what it has read before; that gives the reason back (`readEntities_htmlChars`),
  also one that holds the text of an entity.
-/
import RequestRouter.Http.Reply
import RequestRouter.Proofs.Text.Utf8

namespace RequestRouter.Text

/-! ### Entities -/

/-- What stands in a page for `<`, `>`, `&` and `"`. -/
def entities : List (List Char) :=
  [['&', 'l', 't', ';'], ['&', 'g', 't', ';'], ['&', 'a', 'm', 'p', ';'],
   ['&', 'q', 'u', 'o', 't', ';']]

/-- Reads a text of a page from the left: an entity is its character, all else is itself. -/
def readEntities : List Char → List Char
  | '&' :: 'l' :: 't' :: ';' :: rest => '<' :: readEntities rest
  | '&' :: 'g' :: 't' :: ';' :: rest => '>' :: readEntities rest
  | '&' :: 'a' :: 'm' :: 'p' :: ';' :: rest => '&' :: readEntities rest
  | '&' :: 'q' :: 'u' :: 'o' :: 't' :: ';' :: rest => '"' :: readEntities rest
  | c :: rest => c :: readEntities rest
  | [] => []

/-- A text that ends neither its element nor an attribute, and whose ampersands start entities. -/
structure IsEscaped (cs : List Char) : Prop where
  plain : ∀ c ∈ cs, c ≠ '<' ∧ c ≠ '>' ∧ c ≠ '"'
  ampersand : ∀ before after, cs = before ++ '&' :: after → ∃ e ∈ entities, e <+: '&' :: after

/-- A character is written as an entity, or it is none of the four and written as itself. -/
theorem htmlChar_cases (c : Char) :
    (∃ name, htmlChar c = '&' :: name ∧ '&' :: name ∈ entities ∧
        ∀ d ∈ name, d ≠ '<' ∧ d ≠ '>' ∧ d ≠ '"' ∧ d ≠ '&') ∨
      (htmlChar c = [c] ∧ c ≠ '<' ∧ c ≠ '>' ∧ c ≠ '"' ∧ c ≠ '&') := by
  unfold htmlChar
  split
  · exact .inl ⟨_, rfl, by decide, by simp⟩
  · exact .inl ⟨_, rfl, by decide, by simp⟩
  · exact .inl ⟨_, rfl, by decide, by simp⟩
  · exact .inl ⟨_, rfl, by decide, by simp⟩
  · next hlt hgt hamp hquot => exact .inr ⟨rfl, hlt, hgt, hquot, hamp⟩

/-! ### What is written -/

theorem isEscaped_nil : IsEscaped [] where
  plain := by simp
  ampersand := by simp

/-- What one character is written as, in front of an escaped text. -/
theorem IsEscaped.htmlChar_append {cs : List Char} (h : IsEscaped cs) (c : Char) :
    IsEscaped (htmlChar c ++ cs) := by
  rcases htmlChar_cases c with ⟨name, hchar, hmem, hname⟩ | ⟨hchar, hlt, hgt, hquot, hamp⟩
  · rw [hchar]
    constructor
    · intro d hd
      rcases List.mem_append.mp hd with hd | hd
      · rcases List.mem_cons.mp hd with rfl | hd
        · decide
        · exact ⟨(hname d hd).1, (hname d hd).2.1, (hname d hd).2.2.1⟩
      · exact h.plain d hd
    · intro before after hsplit
      rcases List.append_eq_append_iff.mp hsplit with ⟨mid, hbefore, hcs⟩ | ⟨mid, hentity, hafter⟩
      · exact h.ampersand mid after hcs
      · -- the ampersand is the first character of the entity, or the entity ends right before it
        cases before with
        | nil =>
          refine ⟨'&' :: name, hmem, ?_⟩
          rw [List.nil_append] at hsplit
          rw [← hsplit]
          exact List.prefix_append _ _
        | cons b before =>
          obtain ⟨-, hrest⟩ := List.cons.inj hentity
          cases mid with
          | nil => exact h.ampersand [] after hafter.symm
          | cons m mid =>
            obtain ⟨rfl, -⟩ := List.cons.inj hafter
            have hin : '&' ∈ name := by simp [hrest]
            exact absurd rfl (hname '&' hin).2.2.2
  · rw [hchar, List.singleton_append]
    constructor
    · intro d hd
      rcases List.mem_cons.mp hd with rfl | hd
      · exact ⟨hlt, hgt, hquot⟩
      · exact h.plain d hd
    · intro before after hsplit
      cases before with
      | nil => exact absurd (List.cons.inj hsplit).1 hamp
      | cons b before => exact h.ampersand before after (List.cons.inj hsplit).2

theorem isEscaped_htmlChars (cs : List Char) : IsEscaped (htmlChars cs) := by
  induction cs with
  | nil => exact isEscaped_nil
  | cons c cs ih =>
    rw [htmlChars_cons]
    exact ih.htmlChar_append c

/-! ### What is read back -/

theorem readEntities_of_ne {c : Char} (h : c ≠ '&') (rest : List Char) :
    readEntities (c :: rest) = c :: readEntities rest := by
  rw [readEntities.eq_def]
  split <;> simp_all

/-- What a character is written as is read as that character, whatever follows. -/
theorem readEntities_htmlChar (c : Char) (rest : List Char) :
    readEntities (htmlChar c ++ rest) = c :: readEntities rest := by
  unfold htmlChar
  split
  · rfl
  · rfl
  · rfl
  · rfl
  · next hamp _ => exact readEntities_of_ne hamp rest

/-- **Entities are read back.** -/
theorem readEntities_htmlChars (cs : List Char) : readEntities (htmlChars cs) = cs := by
  induction cs with
  | nil => rfl
  | cons c cs ih => rw [htmlChars_cons, readEntities_htmlChar, ih]

end RequestRouter.Text

namespace RequestRouter.Http.Reply

open RequestRouter.Text

/-! ### The page -/

theorem toList_errorPage (status : Nat) (reason : String) :
    (errorPage status reason).toList =
      pageStart.toList ++ (Nat.toDigits 10 status ++ (pageMiddle.toList ++
        (htmlChars reason.toList ++ pageEnd.toList))) := by
  simp [errorPage, escapeHtml, Nat.toString_eq_repr]

/-- The digits of the status end where the markup goes on. -/
theorem takeWhile_status (status : Nat) (rest : List Char) :
    (Nat.toDigits 10 status ++ (pageMiddle.toList ++ rest)).takeWhile Char.isDigit =
      Nat.toDigits 10 status := by
  have hdigits : ∀ c ∈ Nat.toDigits 10 status, c.isDigit = true := fun c =>
    Nat.isDigit_of_mem_toDigits (by decide) (by decide)
  obtain ⟨middle, hmiddle⟩ : ∃ middle, pageMiddle.toList = '<' :: middle :=
    List.head?_eq_some_iff.mp rfl
  rw [hmiddle, List.cons_append, List.takeWhile_append_of_pos hdigits,
    List.takeWhile_cons_of_neg (by decide), List.append_nil]

/-- A page tells its status and its reason. -/
theorem errorPage_inj {status status' : Nat} {reason reason' : String}
    (h : errorPage status reason = errorPage status' reason') :
    status = status' ∧ reason = reason' := by
  have hlists := congrArg String.toList h
  rw [toList_errorPage, toList_errorPage, List.append_cancel_left_eq] at hlists
  have hstatus := congrArg (List.takeWhile Char.isDigit) hlists
  rw [takeWhile_status, takeWhile_status] at hstatus
  rw [hstatus, List.append_cancel_left_eq, List.append_cancel_left_eq,
    List.append_cancel_right_eq] at hlists
  constructor
  · have hread : ∀ n, Nat.ofDigitChars 10 (Nat.toDigits 10 n) 0 = n := fun n =>
      Nat.ofDigitChars_toDigits (by decide) (by decide)
    rw [← hread status, hstatus, hread]
  · rw [← String.toList_inj, ← readEntities_htmlChars reason.toList, hlists,
      readEntities_htmlChars]

theorem body_apply (status : Nat) (reason : String) (response : Response) :
    ((error status reason).apply response).body = encode (errorPage status reason).toList := by
  rw [apply, write, Response.setContent, Response.setText]

/-- **What an error page says.**  Whatever the response was before, its body is the fixed page with
    the status and a text from which nobody breaks out; that text, read from the left, is the reason.
    Pages of different statuses or reasons are therefore different. -/
theorem body_apply_error (status : Nat) (reason : String) (response : Response) :
    ∃ inserted : String,
      ((error status reason).apply response).body =
          encode (pageStart ++ toString status ++ pageMiddle ++ inserted ++ pageEnd).toList ∧
        IsEscaped inserted.toList ∧
        String.ofList (readEntities inserted.toList) = reason ∧
        ∀ (status' : Nat) (reason' : String) (response' : Response),
          ((error status' reason').apply response').body = ((error status reason).apply response).body →
            status' = status ∧ reason' = reason := by
  refine ⟨escapeHtml reason, ?_, ?_, ?_, ?_⟩
  · rw [body_apply, errorPage]
  · rw [escapeHtml, String.toList_ofList]
    exact isEscaped_htmlChars reason.toList
  · rw [escapeHtml, String.toList_ofList, readEntities_htmlChars, String.ofList_toList]
  · intro status' reason' response' hbody
    rw [body_apply, body_apply] at hbody
    exact errorPage_inj (String.toList_inj.mp (encode_inj hbody))

/-- The text of an entity in a reason is no entity of the page. -/
example : readEntities (htmlChars "a &amp;lt; \"b\"".toList) = "a &amp;lt; \"b\"".toList := by
  decide

end RequestRouter.Http.Reply
