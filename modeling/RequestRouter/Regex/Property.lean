/-
  RequestRouter/Regex/Property.lean
  =================================
  **Character properties by name.**

  A property is asked for by its own name (`Alphabetic`), by a general category or a script alone
  (`Lu`, `Greek`), or as name and value (`sc=Greek`). Case, blanks, `_` and `-` do not matter in a
  name, nor does a leading `is`.

  Name and value may also stand around `!=`, but the operator is not looked at: `sc!=Greek` asks for
  the Greek characters as well.
-/
import RequestRouter.Regex.CharSet
import RequestRouter.Unicode.Age
import RequestRouter.Unicode.Break
import RequestRouter.Unicode.Category
import RequestRouter.Unicode.Script
import RequestRouter.Unicode.ScriptExtensions
import RequestRouter.Unicode.Property

namespace RequestRouter.Regex

open RequestRouter.Unicode

namespace Property

/-- A property name in the form in which tables list it. -/
def squeeze (name : List Char) : String :=
  let isLed := match name with
    | a :: b :: _ => (a == 'i' || a == 'I') && (b == 's' || b == 'S')
    | _ => false
  let body := if isLed then name.drop 2 else name
  let kept := (body.filter fun c => !(c == ' ' || c == '_' || c == '-') && c.toNat < 128).map
    Char.toLower
  if isLed && kept == ['c'] then "isc" else String.ofList kept

/-- The general categories that a group of categories is made of. -/
def categoryGroup? (name : String) : Option (List String) :=
  if name = "l" ∨ name = "letter" then some ["lu", "ll", "lt", "lm", "lo"]
  else if name = "lc" ∨ name = "casedletter" then some ["lu", "ll", "lt"]
  else if name = "m" ∨ name = "mark" ∨ name = "combiningmark" then some ["mn", "mc", "me"]
  else if name = "n" ∨ name = "number" then some ["nd", "nl", "no"]
  else if name = "p" ∨ name = "punctuation" ∨ name = "punct" then
    some ["pc", "pd", "ps", "pe", "pi", "pf", "po"]
  else if name = "s" ∨ name = "symbol" then some ["sm", "sc", "sk", "so"]
  else if name = "z" ∨ name = "separator" then some ["zs", "zl", "zp"]
  else if name = "c" ∨ name = "other" then some ["cc", "cf", "co", "cn"]
  else none

def category? (name : String) : Option CharSet :=
  if name = "any" then some (.compl .none)
  else if name = "ascii" then some (.range 0 127)
  else if name = "assigned" then
    (NamedTable.find? categoryTables "cn").map fun t => .compl (.table t)
  else match categoryGroup? name with
    | some parts =>
      some (.unions (parts.filterMap fun p => (NamedTable.find? categoryTables p).map .table))
    | none => (NamedTable.find? categoryTables name).map .table

def script? (name : String) : Option CharSet := (NamedTable.find? scriptTables name).map .table

def scriptExtensions? (name : String) : Option CharSet :=
  match NamedTable.find? scriptExtensionTables name with
  | some t => some (.table t)
  | none => script? name

/-- The characters that the standard had in a version. -/
def age? (version : String) : Option CharSet :=
  (NamedTable.upTo? ageTables version).map fun tables => .unions (tables.map .table)

def graphemeBreak? (name : String) : Option CharSet :=
  (NamedTable.find? graphemeBreakTables name).map .table

def wordBreak? (name : String) : Option CharSet :=
  (NamedTable.find? wordBreakTables name).map .table

def sentenceBreak? (name : String) : Option CharSet :=
  (NamedTable.find? sentenceBreakTables name).map .table

def binary? (name : String) : Option CharSet := (NamedTable.find? propertyTables name).map .table

/-- The property that a single name asks for. Three names mean a category although they abbreviate
    a property as well. -/
def byName? (name : List Char) : Option CharSet :=
  let name := squeeze name
  if name = "cf" ∨ name = "sc" ∨ name = "lc" then category? name
  else binary? name <|> category? name <|> script? name

/-- The property that a name and a value ask for. -/
def byValue? (name value : List Char) : Option CharSet :=
  let name := squeeze name
  let value := squeeze value
  if name = "gc" ∨ name = "generalcategory" then category? value
  else if name = "sc" ∨ name = "script" then script? value
  else if name = "scx" ∨ name = "scriptextensions" then scriptExtensions? value
  else if name = "age" then age? value
  else if name = "gcb" ∨ name = "graphemeclusterbreak" then graphemeBreak? value
  else if name = "wb" ∨ name = "wordbreak" then wordBreak? value
  else if name = "sb" ∨ name = "sentencebreak" then sentenceBreak? value
  else none

/-- The two sides of the first `mark` in a text. -/
def cut? (mark : List Char) : List Char → Option (List Char × List Char)
  | [] => none
  | c :: rest =>
    if mark.isPrefixOf (c :: rest) then some ([], (c :: rest).drop mark.length)
    else (cut? mark rest).map fun (a, b) => (c :: a, b)

/-- The property that the text between braces asks for. -/
def ofText? (text : List Char) : Option CharSet :=
  match cut? ['!', '='] text <|> cut? [':'] text <|> cut? ['='] text with
  | some (name, value) => byValue? name value
  | none => byName? text

/-- A text is cut at the first place of a mark whose first character is not before it. -/
theorem cut?_append {m : Char} {mark name value : List Char} (h : m ∉ name) :
    cut? (m :: mark) (name ++ m :: (mark ++ value)) = some (name, value) := by
  induction name with
  | nil =>
    have hstarts : (m :: mark).isPrefixOf (m :: (mark ++ value)) = true :=
      List.isPrefixOf_iff_prefix.mpr ⟨value, rfl⟩
    rw [List.nil_append, cut?, if_pos hstarts]
    simp
  | cons c name ih =>
    have hother : ¬ (m :: mark).isPrefixOf (c :: (name ++ m :: (mark ++ value))) = true := by
      rw [List.isPrefixOf_cons_cons, Bool.and_eq_true, beq_iff_eq]
      exact fun hstarts => h (hstarts.1 ▸ List.mem_cons_self)
    rw [List.cons_append, cut?, if_neg hother, ih fun hm => h (List.mem_cons_of_mem c hm)]
    rfl

theorem cut?_of_not_mem {m : Char} {mark text : List Char} (h : m ∉ text) :
    cut? (m :: mark) text = none := by
  induction text with
  | nil => rfl
  | cons c text ih =>
    have hother : ¬ (m :: mark).isPrefixOf (c :: text) = true := by
      rw [List.isPrefixOf_cons_cons, Bool.and_eq_true, beq_iff_eq]
      exact fun hstarts => h (hstarts.1 ▸ List.mem_cons_self)
    rw [cut?, if_neg hother, ih fun hm => h (List.mem_cons_of_mem c hm)]
    rfl

/-- Name and value ask for the same property whatever stands between them. -/
theorem ofText?_operator {name value : List Char}
    (h : ∀ m ∈ ['!', ':', '='], m ∉ name ∧ m ∉ value) :
    ofText? (name ++ '!' :: '=' :: value) = byValue? name value ∧
      ofText? (name ++ ':' :: value) = byValue? name value ∧
      ofText? (name ++ '=' :: value) = byValue? name value := by
  have hbang := h '!' (by decide)
  have hcolon := h ':' (by decide)
  have hequals := h '=' (by decide)
  have hdiffers : cut? ['!', '='] (name ++ '!' :: '=' :: value) = some (name, value) :=
    cut?_append hbang.1
  have hnone : ∀ m ∈ [':', '='], cut? ['!', '='] (name ++ m :: value) = none := by
    intro m hm
    apply cut?_of_not_mem
    have hne : '!' ≠ m := by rintro rfl; exact absurd hm (by decide)
    simp [hbang.1, hbang.2, hne]
  refine ⟨?_, ?_, ?_⟩
  · rw [ofText?, hdiffers]
    rfl
  · have hcut : cut? [':'] (name ++ ':' :: value) = some (name, value) := cut?_append hcolon.1
    rw [ofText?, hnone ':' (by decide), hcut]
    rfl
  · have hcut : cut? ['='] (name ++ '=' :: value) = some (name, value) := cut?_append hequals.1
    have hnone' : cut? [':'] (name ++ '=' :: value) = none :=
      cut?_of_not_mem (by simp [hcolon.1, hcolon.2])
    rw [ofText?, hnone '=' (by decide), hnone', hcut]
    rfl

end Property

end RequestRouter.Regex
