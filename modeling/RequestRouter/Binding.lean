/-
  RequestRouter/Binding.lean
  ==========================
  **Typed arguments from the raw texts of parameters.**

  A scalar takes the first text found, an option takes nothing from an absent or empty text, a list
  takes every text. Blanks around a text are ignored, except by the text type, which takes it as it
  is.
-/
import RequestRouter.Number.Reader
import RequestRouter.Text.Blank

namespace RequestRouter

open RequestRouter.Number

/-! ### Types -/

/-- The type of one value. -/
inductive ScalarType where
  /-- Whole numbers of so many bits. -/
  | whole (signed : Bool) (bits : Nat)
  /-- Whole numbers of the width of an address, which is 64 bits. -/
  | address (signed : Bool)
  | single
  | double
  | char
  | bool
  | text
deriving DecidableEq, Repr

namespace ScalarType

def name : ScalarType → String
  | .whole signed bits => (if signed then "i" else "u") ++ toString bits
  | .address signed => if signed then "isize" else "usize"
  | .single => "f32"
  | .double => "f64"
  | .char => "char"
  | .bool => "bool"
  | .text => "String"

/-- Every type that a parameter can be bound to. -/
def all : List ScalarType :=
  [.whole true 8, .whole true 16, .whole true 32, .whole true 64, .whole true 128, .address true,
   .whole false 8, .whole false 16, .whole false 32, .whole false 64, .whole false 128,
   .address false, .single, .double, .char, .bool, .text]

def ofName? (name : String) : Option ScalarType := all.find? (·.name == name)

end ScalarType

/-- One value. -/
inductive Scalar where
  | whole (n : Int)
  /-- A floating-point number by its pattern. -/
  | float (format : Format) (bits : Nat)
  | char (c : Char)
  | bool (b : Bool)
  | text (s : String)
deriving DecidableEq, Repr

/-- How many values an argument takes. -/
inductive Arity where
  | one
  | optional
  | many
deriving DecidableEq, Repr

structure ArgumentType where
  arity : Arity
  scalar : ScalarType
deriving DecidableEq, Repr

/-- A bound argument. -/
inductive Argument where
  | one (v : Scalar)
  | optional (v : Option Scalar)
  | many (vs : List Scalar)
deriving DecidableEq, Repr

/-! ### Sources and errors -/

/-- Where an argument is read from. -/
inductive ParamSource where
  | path (name : String)
  | splat (index : Nat)
  | query (name : String)
  /-- A path parameter if captured, otherwise the query. -/
  | any (name : String)
deriving DecidableEq, Repr

namespace ParamSource

/-- The source as error messages name it. -/
def label : ParamSource → String
  | .path name => "path parameter '" ++ name ++ "'"
  | .splat index => "splat #" ++ toString index
  | .query name => "query parameter '" ++ name ++ "'"
  | .any name => "parameter '" ++ name ++ "'"

end ParamSource

/-- Why an argument cannot be bound. -/
inductive BindError where
  | missing (source : String)
  | invalid (source value : String) (target : ScalarType) (reason : String)
deriving DecidableEq, Repr

namespace BindError

def message : BindError → String
  | .missing source => "missing " ++ source
  | .invalid source value target reason =>
    source ++ " value '" ++ value ++ "' is not a valid " ++ target.name ++ ": " ++ reason

end BindError

/-! ### Reading -/

/-- The truth value of a word in any ASCII case. -/
def readBool (cs : List Char) : Except String Bool :=
  let word := String.ofList (cs.map Char.toLower)
  if word ∈ ["true", "1", "on", "yes"] then .ok true
  else if word ∈ ["false", "0", "off", "no"] then .ok false
  else .error ("expected a boolean, got '" ++ word ++ "'")

/-- The only character of a text. -/
def readChar : List Char → Except String Char
  | [] => .error "cannot parse char from empty string"
  | [c] => .ok c
  | _ => .error "too many characters in string"

def readScalarWhole (range : Range) (cs : List Char) : Except String Scalar :=
  match readWhole range cs with
  | .ok n => .ok (.whole n)
  | .error e => .error e.message

def readScalarFloat (f : Format) (cs : List Char) : Except String Scalar :=
  match readFloat f cs with
  | .ok bits => .ok (.float f bits)
  | .error e => .error e.message

namespace ScalarType

/-- The value that a text writes, or the reason why it writes none. -/
def read (t : ScalarType) (raw : String) : Except String Scalar :=
  let trimmed := Text.trimChars raw.toList
  match t with
  | .whole signed bits => readScalarWhole (.ofBits signed bits) trimmed
  | .address signed => readScalarWhole (.ofBits signed 64) trimmed
  | .single => readScalarFloat .single trimmed
  | .double => readScalarFloat .double trimmed
  | .char => (readChar trimmed).map .char
  | .bool => (readBool trimmed).map .bool
  | .text => .ok (.text raw)

def bindOne (t : ScalarType) (source raw : String) : Except BindError Scalar :=
  match t.read raw with
  | .ok v => .ok v
  | .error reason => .error (.invalid source raw t reason)

/-- The values of all raw texts of a source; the first that cannot be read is the error. -/
def bindAll (t : ScalarType) (source : String) : List String → Except BindError (List Scalar)
  | [] => .ok []
  | raw :: more =>
    match t.bindOne source raw with
    | .error e => .error e
    | .ok v => (t.bindAll source more).map (v :: ·)

end ScalarType

namespace ArgumentType

def bind (t : ArgumentType) (source : String) (raws : List String) : Except BindError Argument :=
  match t.arity with
  | .one =>
    match raws with
    | [] => .error (.missing source)
    | raw :: _ => (t.scalar.bindOne source raw).map .one
  | .optional =>
    match raws with
    | [] => .ok (.optional none)
    | raw :: _ =>
      if raw.isEmpty then .ok (.optional none)
      else (t.scalar.bindOne source raw).map fun v => .optional (some v)
  | .many => (t.scalar.bindAll source raws).map .many

end ArgumentType

end RequestRouter
