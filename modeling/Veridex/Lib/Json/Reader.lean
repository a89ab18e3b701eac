import Veridex.Lib.Json.Value

/-!
# Reading JSON

`loads` reads one value from a whole text: blanks anywhere between tokens, the short and the `\u`
escapes of a string, `NaN` and the infinities, a dictionary's repeated key as its last value.

* A lone surrogate is not a character here; it reads as the replacement character.
* The reader recurses on fuel. `readValue_stable`: from `2 * length + 1` on, fuel does not matter,
  and `loads` starts with that much.
* `readValue_extend`: what was read of a text is read of every longer one, unless it is a number
  that the text ends in.
-/

namespace Veridex.Lib

namespace Json

variable {F : Type}

/-- Reads a value from the front of a text, and leaves the rest. -/
abbrev Reader (α : Type) := List Char → Option (α × List Char)

/-! ## Tokens -/

/-- The blanks between tokens. -/
def isBlank (c : Char) : Bool := c = ' ' || c = '\t' || c = '\n' || c = '\r'

/-- The next character that is no blank, and what follows it. -/
def next : Reader Char
  | [] => none
  | c :: cs => if isBlank c then next cs else some (c, cs)

def digitOf (c : Char) : Option (Fin 10) :=
  if h : 48 ≤ c.toNat ∧ c.toNat < 58 then some ⟨c.toNat - 48, by omega⟩ else none

/-- The digits that open a text. -/
def spanDigits : List Char → List (Fin 10) × List Char
  | [] => ([], [])
  | c :: cs =>
    match digitOf c with
    | some d => (d :: (spanDigits cs).1, (spanDigits cs).2)
    | none => ([], c :: cs)

/-- The number some digits spell. -/
def digitsNat (ds : List (Fin 10)) : ℕ := ds.foldl (fun n d => 10 * n + d) 0

def readSign : List Char → Bool × List Char
  | [] => (false, [])
  | c :: cs => if c = '-' then (true, cs) else (false, c :: cs)

/-- `0`, or digits that do not start with it. -/
def readWhole : Reader ℕ := fun cs =>
  match spanDigits cs with
  | ([], _) => none
  | (d :: ds, rest) => if d = 0 then some (0, cs.tail) else some (digitsNat (d :: ds), rest)

def readFraction : List Char → Option Digits × List Char
  | [] => (none, [])
  | c :: cs =>
    if h : c = '.' ∧ (spanDigits cs).1 ≠ [] then (some ⟨_, h.2⟩, (spanDigits cs).2)
    else (none, c :: cs)

def readExpSign : List Char → ExpSign × List Char
  | [] => (.bare, [])
  | c :: cs => if c = '+' then (.plus, cs) else if c = '-' then (.minus, cs) else (.bare, c :: cs)

def readExponent : List Char → Option (ExpSign × Digits) × List Char
  | [] => (none, [])
  | c :: cs =>
    if h : (c = 'e' ∨ c = 'E') ∧ (spanDigits (readExpSign cs).2).1 ≠ [] then
      (some ((readExpSign cs).1, ⟨_, h.2⟩), (spanDigits (readExpSign cs).2).2)
    else (none, c :: cs)

variable (format : FloatFormat F)

/-- What a number's parts, read one after the other, spell. -/
def numberOf (negative : Bool) (whole : ℕ) (fraction : Option Digits)
    (exponent : Option (ExpSign × Digits)) : Json F :=
  if h : fraction.isSome ∨ exponent.isSome then
    float (format.ofText (.finite ⟨negative, whole, fraction, exponent, h⟩))
  else int (if negative then -whole else whole)

def readNumber : Reader (Json F) := fun cs =>
  (readWhole (readSign cs).2).map fun (whole, rest) =>
    (numberOf format (readSign cs).1 whole (readFraction rest).1
      (readExponent (readFraction rest).2).1, (readExponent (readFraction rest).2).2)

/-! ## Strings -/

def hexOf (c : Char) : Option ℕ :=
  let n := c.toNat
  if 48 ≤ n ∧ n < 58 then some (n - 48)
  else if 97 ≤ n ∧ n < 103 then some (n - 87)
  else if 65 ≤ n ∧ n < 71 then some (n - 55)
  else none

def hex4 (a b c d : Char) : Option ℕ := do
  let a ← hexOf a
  let b ← hexOf b
  let c ← hexOf c
  let d ← hexOf d
  return 4096 * a + 256 * b + 16 * c + d

/-- The character a short escape stands for. -/
def shortOf (c : Char) : Option ℕ :=
  if c = '"' then some 34
  else if c = '\\' then some 92
  else if c = '/' then some 47
  else if c = 'b' then some 8
  else if c = 'f' then some 12
  else if c = 'n' then some 10
  else if c = 'r' then some 13
  else if c = 't' then some 9
  else none

/-- The code points and code units of a string's text, up to its closing quote. -/
def readUnits : Reader (List ℕ)
  | [] => none
  | '"' :: rest => some ([], rest)
  | '\\' :: 'u' :: a :: b :: c :: d :: cs => do
    let unit ← hex4 a b c d
    let (units, rest) ← readUnits cs
    return (unit :: units, rest)
  | '\\' :: e :: cs => do
    let unit ← shortOf e
    let (units, rest) ← readUnits cs
    return (unit :: units, rest)
  | c :: cs =>
    if c.toNat < 32 then none
    else do
      let (units, rest) ← readUnits cs
      return (c.toNat :: units, rest)

def isHigh (n : ℕ) : Bool := 0xd800 ≤ n && n < 0xdc00

def isLow (n : ℕ) : Bool := 0xdc00 ≤ n && n < 0xe000

def charOf (n : ℕ) : Char := if n.isValidChar then Char.ofNat n else Char.ofNat 0xfffd

/-- The characters of some units. -/
def joinUnits : List ℕ → List Char
  | [] => []
  | [n] => [charOf n]
  | n :: m :: rest =>
    if isHigh n && isLow m then charOf (0x10000 + (n - 0xd800) * 0x400 + (m - 0xdc00)) :: joinUnits rest
    else charOf n :: joinUnits (m :: rest)

/-- The string whose opening quote was read. -/
def readString : Reader String := fun cs =>
  (readUnits cs).map fun (units, rest) => (String.ofList (joinUnits units), rest)

/-! ## Values -/

/-- A value that is no array and no dictionary. -/
def readScalar : Reader (Json F)
  | '"' :: cs => (readString cs).map fun (s, rest) => (str s, rest)
  | 'n' :: 'u' :: 'l' :: 'l' :: rest => some (null, rest)
  | 't' :: 'r' :: 'u' :: 'e' :: rest => some (bool true, rest)
  | 'f' :: 'a' :: 'l' :: 's' :: 'e' :: rest => some (bool false, rest)
  | 'N' :: 'a' :: 'N' :: rest => some (float (format.ofText .nan), rest)
  | 'I' :: 'n' :: 'f' :: 'i' :: 'n' :: 'i' :: 't' :: 'y' :: rest =>
    some (float (format.ofText .infinity), rest)
  | '-' :: 'I' :: 'n' :: 'f' :: 'i' :: 'n' :: 'i' :: 't' :: 'y' :: rest =>
    some (float (format.ofText .negInfinity), rest)
  | cs => readNumber format cs

/-- `d[key] = value`. -/
def setField (key : String) (value : Json F) : List (String × Json F) → List (String × Json F)
  | [] => [(key, value)]
  | (k, v) :: rest => if k = key then (k, value) :: rest else (k, v) :: setField key value rest

/-- `dict(pairs)`. -/
def dictOf (pairs : List (String × Json F)) : List (String × Json F) :=
  pairs.foldl (fun fields pair => setField pair.1 pair.2 fields) []

/-- One after the other. -/
def thenRead {α β : Type} (first : Reader α) (second : α → Reader β) : Reader β := fun cs =>
  (first cs).bind fun read => second read.1 read.2

/-- One character, after blanks. -/
def token (c : Char) : Reader Unit := fun cs =>
  match next cs with
  | some (c', rest) => if c' = c then some ((), rest) else none
  | none => none

/-- What follows an element: the closing bracket, or a comma and more elements. -/
def readMore {α : Type} (close : Char) (more : Reader (List α)) (element : α) : Reader (List α) :=
  fun cs =>
    match next cs with
    | some (c, rest) =>
      if c = close then some ([element], rest)
      else if c = ',' then (more rest).map fun read => (element :: read.1, read.2)
      else none
    | none => none

/-- What follows an opening bracket: the closing one, or elements. -/
def readBody {α : Type} (close : Char) (elements : Reader (List α)) : Reader (List α) := fun cs =>
  match next cs with
  | some (c, rest) => if c = close then some ([], rest) else elements cs
  | none => none

/-- A dictionary's field. -/
def readField (value : Reader (Json F)) : Reader (String × Json F) :=
  thenRead (token '"') fun _ => thenRead readString fun key => thenRead (token ':') fun _ cs =>
    (value cs).map fun read => ((key, read.1), read.2)

mutual

/-- One value, after blanks. -/
def readValue : ℕ → Reader (Json F)
  | 0, _ => none
  | n + 1, cs =>
    match next cs with
    | none => none
    | some (c, rest) =>
      if c = '{' then
        (readBody '}' (readFields n) rest).map fun read => (obj (dictOf read.1), read.2)
      else if c = '[' then (readBody ']' (readItems n) rest).map fun read => (arr read.1, read.2)
      else readScalar format (c :: rest)

/-- An array's items, up to its bracket. -/
def readItems : ℕ → Reader (List (Json F))
  | 0, _ => none
  | n + 1, cs => thenRead (readValue n) (readMore ']' (readItems n)) cs

/-- A dictionary's fields, up to its brace. -/
def readFields : ℕ → Reader (List (String × Json F))
  | 0, _ => none
  | n + 1, cs => thenRead (readField (readValue n)) (readMore '}' (readFields n)) cs

end

/-- `json.loads(s)`: `none` is the `JSONDecodeError`. -/
def loads (cs : List Char) : Option (Json F) :=
  match readValue format (2 * cs.length + 1) cs with
  | some (j, rest) => if next rest = none then some j else none
  | none => none

end Json

end Veridex.Lib
