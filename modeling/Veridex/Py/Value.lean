import Veridex.Py.Basic

/-!
# Untyped values

What an untyped venue response may hold, and the operations the sources apply to it: truth,
`.get`, `len`, iteration, `str`, `float`. `Value.other` is any object that offers none of them. The text of
a number, a container or another object is taken as given (`textOf`): the sources only compare it
with an id or a status.
-/

namespace Veridex.Py

/-- A value of an untyped response. -/
inductive Value where
  | none
  | bool (b : Bool)
  | int (n : ℤ)
  | float (x : PyFloat)
  | str (s : String)
  | list (items : List Value)
  | dict (items : List (String × Value))
  | other

namespace PyFloat

/-- The least magnitude that rounds to an infinity. -/
def overflowBound : ℚ := 2 ^ 1024 - 2 ^ 970

/-- A rational as a float. -/
def ofRat (q : ℚ) : PyFloat :=
  if overflowBound ≤ q then posInf else if q ≤ -overflowBound then negInf else fin q

theorem small_lt_overflowBound : (10000 : ℚ) < overflowBound := by
  have hsmall : (10000 : ℚ) < 2 ^ 970 :=
    lt_trans (by norm_num) (pow_lt_pow_right₀ (by norm_num) (by norm_num : 14 < 970))
  have hlarge : (2 : ℚ) * 2 ^ 970 ≤ 2 ^ 1024 := by
    rw [← pow_succ']
    exact pow_le_pow_right₀ (by norm_num) (by norm_num)
  rw [overflowBound, lt_sub_iff_add_lt]
  calc (10000 : ℚ) + 2 ^ 970 < 2 ^ 970 + 2 ^ 970 := add_lt_add_left hsmall _
    _ = 2 * 2 ^ 970 := (two_mul _).symm
    _ ≤ 2 ^ 1024 := hlarge

/-- A small rational is a float. -/
theorem ofRat_small {q : ℚ} (h : |q| ≤ 10000) : ofRat q = .fin q := by
  obtain ⟨hlow, hhigh⟩ := abs_le.mp h
  have hbound := small_lt_overflowBound
  rw [ofRat, if_neg (by linarith), if_neg (by linarith)]

/-- `a + b`. -/
def add : PyFloat → PyFloat → PyFloat
  | fin a, fin b => ofRat (a + b)
  | nan, _ | _, nan | posInf, negInf | negInf, posInf => nan
  | posInf, _ | _, posInf => posInf
  | negInf, _ | _, negInf => negInf

end PyFloat

/-! ## Texts -/

/-- `s.lower()`, as far as a comparison with an ASCII text can tell: the Kelvin sign is the only
other character whose lower case is an ASCII letter. -/
def lower (s : String) : String := s.map fun c => if c = Char.ofNat 0x212a then 'k' else c.toLower

@[simp] theorem lower_empty : lower "" = "" := by simp [lower]

/-- The decimal digits that open a text, with single underscores between them, and the rest. -/
def takeDigits : List Char → List Char × List Char
  | c :: d :: rest =>
    if c.isDigit then
      if d = '_' then
        match rest with
        | e :: _ => if e.isDigit then
            let (digits, rest) := takeDigits rest
            (c :: digits, rest)
          else ([c], d :: rest)
        | [] => ([c], [d])
      else
        let (digits, rest) := takeDigits (d :: rest)
        (c :: digits, rest)
    else ([], c :: d :: rest)
  | [c] => if c.isDigit then ([c], []) else ([], [c])
  | [] => ([], [])

/-- The number some digits spell. -/
def digitsValue (digits : List Char) : ℕ :=
  digits.foldl (fun n c => 10 * n + (c.toNat - '0'.toNat)) 0

/-- A sign, and the rest. -/
def takeSign : List Char → Bool × List Char
  | '-' :: rest => (true, rest)
  | '+' :: rest => (false, rest)
  | rest => (false, rest)

/-- `float(s)` for a text: a decimal number with an optional exponent, `inf`, `infinity` or `nan`,
blanks around it. `none` is the `ValueError`. -/
def floatOfText (s : String) : Option PyFloat :=
  let blank (c : Char) : Bool := c.isWhitespace || c = Char.ofNat 11 || c = Char.ofNat 12
  let text := ((s.toList.dropWhile blank).reverse.dropWhile blank).reverse
  let (negative, body) := takeSign text
  let signed (x : PyFloat) (y : PyFloat) : PyFloat := if negative then x else y
  let word := lower (String.ofList body)
  if word = "inf" ∨ word = "infinity" then some (signed .negInf .posInf)
  else if word = "nan" then some .nan
  else
    let (whole, rest) := takeDigits body
    let (fraction, rest) := match rest with
      | '.' :: rest => takeDigits rest
      | rest => ([], rest)
    if whole = [] ∧ fraction = [] then none
    else
      let mantissa : ℚ := digitsValue (whole ++ fraction) / 10 ^ fraction.length
      let value (q : ℚ) : Option PyFloat := some (PyFloat.ofRat (if negative then -q else q))
      match rest with
      | [] => value mantissa
      | c :: rest =>
        if c = 'e' ∨ c = 'E' then
          let (down, rest) := takeSign rest
          match takeDigits rest with
          | ([], _) => none
          | (digits, []) =>
            if down then value (mantissa / 10 ^ digitsValue digits)
            else value (mantissa * 10 ^ digitsValue digits)
          | _ => none
        else none

namespace Value

/-- `bool(v)`. -/
def truthy : Value → Bool
  | none => false
  | bool b => b
  | int n => n != 0
  | float x => x != .fin 0
  | str s => s != ""
  | list items => !items.isEmpty
  | dict items => !items.isEmpty
  | other => true

/-- `a or b`. -/
def or (a b : Value) : Value := if a.truthy then a else b

/-- `v.get(key, default)`. -/
def get (v : Value) (key : String) (default : Value := .none) : Except PyExc Value :=
  match v with
  | dict items => .ok ((items.lookup key).getD default)
  | _ => .error ⟨.attributeError, "object has no attribute 'get'"⟩

/-- `len(v)`. -/
def len : Value → Except PyExc ℕ
  | str s => .ok s.length
  | list items => .ok items.length
  | dict items => .ok items.length
  | _ => .error ⟨.typeError, "object has no len()"⟩

/-- `iter(v)`, exhausted. -/
def iter : Value → Except PyExc (List Value)
  | str s => .ok (s.toList.map fun c => .str (String.singleton c))
  | list items => .ok items
  | dict items => .ok (items.map fun item => .str item.1)
  | _ => .error ⟨.typeError, "object is not iterable"⟩

/-- `isinstance(v, Mapping)`. -/
def isMapping : Value → Bool
  | dict _ => true
  | _ => false

/-- `str(v)`. -/
def text (textOf : Value → String) : Value → String
  | none => "None"
  | bool true => "True"
  | bool false => "False"
  | int n => toString n
  | str s => s
  | v => textOf v

/-- `float(v)`. -/
def toFloat : Value → Except PyExc PyFloat
  | bool b => .ok (.fin (if b then 1 else 0))
  | int n =>
    if |(n : ℚ)| < PyFloat.overflowBound then .ok (.fin n)
    else .error ⟨.exception, "int too large to convert to float"⟩
  | float x => .ok x
  | str s => match floatOfText s with
    | some x => .ok x
    | Option.none => .error ⟨.valueError, "could not convert string to float"⟩
  | _ => .error ⟨.typeError, "float() argument must be a string or a real number"⟩

@[simp] theorem get_dict (items : List (String × Value)) (key : String) (default : Value) :
    (dict items).get key default = .ok ((items.lookup key).getD default) := rfl

end Value

end Veridex.Py
