/-
  RequestRouter/Text/Html.lean
  ============================
  **Text inside a markup page.**

  The four characters that could end a text node or an attribute are written as entities, each by its
  own, so an ampersand of the text is never mistaken for the start of an entity.
-/

namespace RequestRouter.Text

/-- A character as it is written inside a page. -/
def htmlChar : Char → List Char
  | '<' => ['&', 'l', 't', ';']
  | '>' => ['&', 'g', 't', ';']
  | '&' => ['&', 'a', 'm', 'p', ';']
  | '"' => ['&', 'q', 'u', 'o', 't', ';']
  | c => [c]

/-- A text as it is written inside a page. -/
def htmlChars (cs : List Char) : List Char := cs.flatMap htmlChar

/-- A text as it is written inside a page. -/
def escapeHtml (s : String) : String := String.ofList (htmlChars s.toList)

@[simp] theorem htmlChars_nil : htmlChars [] = [] := rfl

@[simp] theorem htmlChars_cons (c : Char) (cs : List Char) :
    htmlChars (c :: cs) = htmlChar c ++ htmlChars cs := by
  simp [htmlChars]

end RequestRouter.Text
