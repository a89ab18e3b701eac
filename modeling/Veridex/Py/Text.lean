import Veridex.Py.Decoded

/-!
# Blanks, integers and lines

`strip` is `str.strip()`. The blanks are the characters `str.isspace` accepts.
`Value.toInt` is `int(v)`; a text of more than 4300 digits is refused, as the interpreter does.
`splitlines` is `str.splitlines()`, on the characters of a text; `splitlines_line` reads off a first
line that a newline ends.
-/

namespace Veridex.Py

/-- `c.isspace()`. -/
def isSpace (c : Char) : Bool :=
  let n := c.toNat
  (9 ≤ n && n ≤ 13) || (0x1c ≤ n && n ≤ 0x20) || n = 0x85 || n = 0xa0 || n = 0x1680 ||
    (0x2000 ≤ n && n ≤ 0x200a) || n = 0x2028 || n = 0x2029 || n = 0x202f || n = 0x205f ||
    n = 0x3000

/-- `s.strip()`. -/
def strip (s : String) : String :=
  String.ofList ((s.toList.dropWhile isSpace).rdropWhile isSpace)

/-- `s.upper()`, as far as a comparison with an ASCII text without `I` can tell: the long s is the
only other character whose upper case is one ASCII letter. -/
def upper (s : String) : String := s.map fun c => if c = Char.ofNat 0x17f then 'S' else c.toUpper

/-- A character of `repr(s)`, between quotes of a kind. -/
def reprChar (quote c : Char) : List Char :=
  if c = quote || c = '\\' then ['\\', c]
  else if c = '\n' then ['\\', 'n']
  else if c = '\r' then ['\\', 'r']
  else if c = '\t' then ['\\', 't']
  else if c.toNat < 0x20 || c.toNat = 0x7f then
    ['\\', 'x', Nat.digitChar (c.toNat / 16), Nat.digitChar (c.toNat % 16)]
  else [c]

/-- `repr(s)`; a character outside of ASCII is taken to be printable. -/
def pyRepr (s : String) : String :=
  let cs := s.toList
  let quote := if '\'' ∈ cs ∧ '"' ∉ cs then '"' else '\''
  String.ofList (quote :: cs.flatMap (reprChar quote) ++ [quote])

/-- The most digits `int(s)` reads. -/
def maxIntDigits : ℕ := 4300

/-- `int(s)` for a text. `none` is the `ValueError`. -/
def intOfText (s : String) : Option ℤ :=
  let (negative, body) := takeSign (strip s).toList
  match takeDigits body with
  | ([], _) => none
  | (digits, []) =>
    if maxIntDigits < digits.length then none
    else some (if negative then -digitsValue digits else digitsValue digits)
  | _ => none

/-- `int(v)`: a float loses its fraction. -/
def Value.toInt : Value → Except PyExc ℤ
  | .bool b => .ok (if b then 1 else 0)
  | .int n => .ok n
  | .float (.fin q) => .ok (q.num.tdiv q.den)
  | .float .nan => .error ⟨.valueError, "cannot convert float NaN to integer"⟩
  | .float _ => .error ⟨.exception, "cannot convert float infinity to integer"⟩
  | .str s => match intOfText s with
    | some n => .ok n
    | Option.none => .error ⟨.valueError, "invalid literal for int() with base 10"⟩
  | _ => .error ⟨.typeError, "int() argument must be a string or a real number"⟩

/-- The characters a line ends at. -/
def isLineBreak (c : Char) : Bool :=
  let n := c.toNat
  (10 ≤ n && n ≤ 13) || (0x1c ≤ n && n ≤ 0x1e) || n = 0x85 || n = 0x2028 || n = 0x2029

/-- `s.splitlines()`: a break at the end opens no line, and `\r\n` is one break. -/
def splitlines : List Char → List (List Char)
  | [] => []
  | '\r' :: '\n' :: cs => [] :: splitlines cs
  | c :: cs =>
    if isLineBreak c then [] :: splitlines cs
    else match splitlines cs with
      | [] => [[c]]
      | line :: lines => (c :: line) :: lines

theorem splitlines_cons {c : Char} (hc : isLineBreak c = false) (cs : List Char) :
    splitlines (c :: cs) = (match splitlines cs with
      | [] => [[c]]
      | line :: lines => (c :: line) :: lines) := by
  rw [splitlines]
  · simp [hc]
  · rintro cs' rfl -
    simp [isLineBreak] at hc

theorem splitlines_line {line : List Char} (h : ∀ c ∈ line, isLineBreak c = false)
    (rest : List Char) : splitlines (line ++ '\n' :: rest) = line :: splitlines rest := by
  induction line with
  | nil => simp [splitlines, isLineBreak]
  | cons c line ih =>
    rw [List.cons_append, splitlines_cons (h c List.mem_cons_self),
      ih fun d hd => h d (List.mem_cons_of_mem _ hd)]

theorem splitlines_last {line : List Char} (h : ∀ c ∈ line, isLineBreak c = false)
    (hne : line ≠ []) : splitlines line = [line] := by
  induction line with
  | nil => exact absurd rfl hne
  | cons c line ih =>
    rw [splitlines_cons (h c List.mem_cons_self)]
    cases line with
    | nil => rfl
    | cons d line => rw [ih (fun e he => h e (List.mem_cons_of_mem _ he)) (by simp)]

end Veridex.Py

/-!
## Printed values

`Decoded.repr` is `repr(v)` of a decoded value, `Decoded.strOf` is `str(v)`, and `reprList` is what an
f-string shows of a list of texts.
-/

namespace Veridex.Py

open Veridex.Lib

namespace Decoded

variable (format : Json.FloatFormat PyFloat)

/-- `repr(x)` of a float. -/
def reprFloat (x : PyFloat) : String :=
  match format.text x with
  | .nan => "nan"
  | .infinity => "inf"
  | .negInfinity => "-inf"
  | text => String.ofList text.chars

mutual

/-- `repr(v)`. -/
def repr : Decoded → String
  | .null => "None"
  | .bool b => if b then "True" else "False"
  | .int n => String.ofList (Json.intText n)
  | .float x => reprFloat format x
  | .str s => pyRepr s
  | .arr items => "[" ++ ", ".intercalate (reprItems items) ++ "]"
  | .obj fields => "\x7b" ++ ", ".intercalate (reprFields fields) ++ "\x7d"

def reprItems : List Decoded → List String
  | [] => []
  | v :: rest => repr v :: reprItems rest

def reprFields : List (String × Decoded) → List String
  | [] => []
  | (name, v) :: rest => (pyRepr name ++ ": " ++ repr v) :: reprFields rest

end

/-- `str(v)`. -/
def strOf : Decoded → String
  | .str s => s
  | v => repr format v

end Decoded

end Veridex.Py
