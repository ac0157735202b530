import Vendoring.Decimal.Binary64
import Vendoring.Text.Quoted
import Vendoring.Yaml.Event

/-!
# What a scalar stands for

Where text is asked for, a scalar is its text. Where something else is asked for, a message says
what stands there instead: a plain scalar can be nothing, a truth value, an integer or a floating
point number, by its spelling; every other scalar is a string. A tag of the standard set can ask for
one of these, and then the spelling has to agree.
-/

namespace Vendoring.Yaml

/-- What stands where something else is asked for. -/
inductive Kind where
  | sequence
  | mapping
  | unit
  | boolean (b : Bool)
  | integer (n : Int)
  | wideUnsigned (n : Nat)
  | wideSigned (n : Int)
  | float (text : String)
  | string (text : String)
deriving DecidableEq

/-- How a message names what stands there. -/
def Kind.message : Kind → String
  | .sequence => "sequence"
  | .mapping => "map"
  | .unit => "unit value"
  | .boolean b => "boolean \x60" ++ (if b then "true" else "false") ++ "\x60"
  | .integer n => "integer \x60" ++ toString n ++ "\x60"
  | .wideUnsigned n => "integer \x60" ++ toString n ++ "\x60 as u128"
  | .wideSigned n => "integer \x60" ++ toString n ++ "\x60 as i128"
  | .float text => "floating point \x60" ++ text ++ "\x60"
  | .string text => "string " ++ Text.quoted text

/-- Whether the text is one of the spellings of nothing, the empty one apart. -/
def isNull (s : String) : Bool :=
  ["null", "Null", "NULL", "~"].contains s

/-- The truth value that a text spells. -/
def boolean? (s : String) : Option Bool :=
  if ["true", "True", "TRUE"].contains s then some true
  else if ["false", "False", "FALSE"].contains s then some false
  else none

/-- A text without one leading character, if it begins with that. -/
def stripSign (sign : Char) : List Char → List Char
  | [] => []
  | c :: cs => if c = sign then cs else c :: cs

/-- Several digits of which the first is a zero are no number. -/
def isPaddedDigits (s : List Char) : Bool :=
  let s := match s with
    | '-' :: rest => rest
    | '+' :: rest => rest
    | _ => s
  1 < s.length && s.head? == some '0' && s.all Char.isDigit

/-- The value of digits in a base, of which there must be one. -/
def digitsValue? (base : Nat) (s : List Char) : Option Nat :=
  if s.isEmpty then none
  else s.foldlM (fun n c => match hexDigit? c with
    | some d => if d < base then some (n * base + d) else none
    | none => none) 0

/-- The value of digits behind the mark of their base. -/
def basedValue? (s : List Char) : Option Nat :=
  match s with
  | '0' :: 'x' :: rest => digitsValue? 16 rest
  | '0' :: 'o' :: rest => digitsValue? 8 rest
  | '0' :: 'b' :: rest => digitsValue? 2 rest
  | _ => none

/-- The number that a text spells without a minus sign. -/
def unsigned? (s : List Char) : Option Nat :=
  let body := stripSign '+' s
  match basedValue? body with
  | some n => some n
  | none => if isPaddedDigits s then none else digitsValue? 10 body

/-- The size of the number that a text spells with a minus sign. -/
def negated? (s : List Char) : Option Nat :=
  match s with
  | '-' :: body =>
    match basedValue? body with
    | some n => some n
    | none => if isPaddedDigits s then none else digitsValue? 10 body
  | _ => none

/-- The integer that a text spells. Numbers beyond 64 bits are told apart, and those beyond 128 bits
are none. -/
def integer? (s : String) : Option Kind :=
  match unsigned? s.toList, negated? s.toList with
  | some n, _ =>
    if n < Nat.pow 2 64 then some (.integer n)
    else if n < Nat.pow 2 128 then some (.wideUnsigned n)
    else none
  | none, some n =>
    if n ≤ Nat.pow 2 63 then some (.integer (-n))
    else if n ≤ Nat.pow 2 127 then some (.wideSigned (-n))
    else none
  | none, none => none

/-- The digits and the exponent of a decimal number with a point or an exponent, or without. -/
def decimal? (s : List Char) : Option (Nat × Int) :=
  let whole := s.takeWhile Char.isDigit
  let rest := s.dropWhile Char.isDigit
  let (fraction, rest) := match rest with
    | '.' :: more => (more.takeWhile Char.isDigit, more.dropWhile Char.isDigit)
    | _ => ([], rest)
  let digits := whole ++ fraction
  match digitsValue? 10 digits with
  | none => none
  | some n =>
    match rest with
    | [] => some (n, -fraction.length)
    | e :: more =>
      if e = 'e' || e = 'E' then
        let (negative, more) := match more with
          | '-' :: r => (true, r)
          | '+' :: r => (false, r)
          | _ => (false, more)
        match digitsValue? 10 more with
        | some k => some (n, (if negative then -(k : Int) else k) - fraction.length)
        | none => none
      else none

/-- The finite number that a decimal text with an optional sign spells. -/
def finite? (s : List Char) : Option Decimal.Binary64 := do
  let (negative, body) := match s with
    | '-' :: r => (true, r)
    | '+' :: r => (false, r)
    | _ => (false, s)
  let (digits, exponent) ← decimal? body
  Decimal.ofDecimal? negative digits exponent

/-- The floating point number that a text spells, as it is shown. -/
def float? (s : String) : Option String :=
  let cs := s.toList
  let body := stripSign '+' cs
  if cs.head? == some '+' && (body.head? == some '+' || body.head? == some '-') then none
  else if [".inf", ".Inf", ".INF"].contains (String.ofList body) then some "inf"
  else if ["-.inf", "-.Inf", "-.INF"].contains s then some "-inf"
  else if [".nan", ".NaN", ".NAN"].contains s then some "NaN"
  else (finite? body).map Decimal.positional

/-- What a plain scalar stands for. -/
def plainKind (s : String) : Kind :=
  if s.isEmpty || isNull s then .unit
  else match boolean? s with
    | some b => .boolean b
    | none =>
      match integer? s with
      | some kind => kind
      | none =>
        match (if isPaddedDigits s.toList then none else float? s) with
        | some text => .float text
        | none => .string s

/-- A tag of the standard set. -/
def standardTag (name : String) : List Char :=
  ("tag:yaml.org,2002:" ++ name).toList

/-- What a scalar stands for. If its tag and its spelling disagree, what the tag asks for is
returned. -/
def scalarKind (text : List Char) (style : ScalarStyle) (tag : Option (List Char)) :
    Except String Kind :=
  let s := String.ofList text
  let untagged := if style = .plain then plainKind s else .string s
  match tag with
  | none => .ok untagged
  | some tag =>
    if tag = standardTag "bool" then
      match boolean? s with
      | some b => .ok (.boolean b)
      | none => .error "a boolean"
    else if tag = standardTag "int" then
      match integer? s with
      | some kind => .ok kind
      | none => .error "an integer"
    else if tag = standardTag "float" then
      match float? s with
      | some text => .ok (.float text)
      | none => .error "a float"
    else if tag = standardTag "null" then
      if isNull s then .ok .unit else .error "null"
    else if tag.head? = some '!' && style = .plain then .ok untagged
    else .ok (.string s)

end Vendoring.Yaml
