import Veridex.Lib.Fallible
import Veridex.Lib.Json.RoundTrip
import Veridex.Py.Value

/-!
# Decoded JSON

The values `json.loads` gives, and the operations the sources apply to them untyped: truth, equality,
`in`, `[…]`, `.get`, `-`, `float`, `int`. A dictionary's keys are texts; another value that can be a
key is in no dictionary, and a list or a dictionary is no key at all.

A number is equal to another of its value whatever their types, and `True` is `1`.
-/

namespace Veridex.Py

open Veridex.Lib

namespace PyFloat

/-- `a - b`. -/
def sub (a b : PyFloat) : PyFloat := a.add b.neg

/-- `a / b`, where `b` is no zero. -/
def div : PyFloat → PyFloat → PyFloat
  | nan, _ | _, nan => nan
  | fin a, fin b => ofRat (a / b)
  | fin _, _ => fin 0
  | posInf, fin b => if b < 0 then negInf else posInf
  | negInf, fin b => if b < 0 then posInf else negInf
  | _, _ => nan

/-- `a == b`. -/
def eqv (a b : PyFloat) : Bool := a != nan && a == b

end PyFloat

/-- A decoded JSON value. -/
abbrev Decoded := Json PyFloat

namespace Decoded

/-- `bool(v)`. -/
def truthy : Decoded → Bool
  | .null => false
  | .bool b => b
  | .int n => n != 0
  | .float x => x != .fin 0
  | .str s => s != ""
  | .arr items => !items.isEmpty
  | .obj fields => !fields.isEmpty

/-- The number a value is, `True` and `False` among them. -/
def number : Decoded → Option PyFloat
  | .bool b => some (.fin (if b then 1 else 0))
  | .int n => some (.fin n)
  | .float x => some x
  | _ => none

/-- `v is True`. -/
def isTrue : Decoded → Bool
  | .bool b => b
  | _ => false

/-- `isinstance(v, int) and not isinstance(v, bool)`: the int. -/
def properInt : Decoded → Option ℤ
  | .int n => some n
  | _ => none

mutual

/-- `a == b`, of canonical values. -/
def eqv : Decoded → Decoded → Bool
  | .null, .null => true
  | .str a, .str b => a == b
  | .arr a, .arr b => eqvItems a b
  | .obj a, .obj b => eqvFields a b
  | a, b => match number a, number b with
    | some x, some y => x.eqv y
    | _, _ => false

def eqvItems : List Decoded → List Decoded → Bool
  | [], [] => true
  | a :: as, b :: bs => eqv a b && eqvItems as bs
  | _, _ => false

def eqvFields : List (String × Decoded) → List (String × Decoded) → Bool
  | [], [] => true
  | (k, a) :: as, (l, b) :: bs => k == l && eqv a b && eqvFields as bs
  | _, _ => false

end

/-- A value as a key: its text, or none where no dictionary has it. -/
def key : Decoded → Except PyExc (Option String)
  | .str s => .ok (some s)
  | .arr _ | .obj _ => .error ⟨.typeError, "unhashable type"⟩
  | _ => .ok none

/-- `needle in container`. -/
def contains (container needle : Decoded) : Except PyExc Bool :=
  match container with
  | .obj fields => return (← needle.key).any fun name => (fields.lookup name).isSome
  | .arr items => .ok (items.any (eqv needle))
  | .str s => match needle with
    | .str t => .ok (decide (t.toList <:+: s.toList))
    | _ => .error ⟨.typeError, "'in <string>' requires string as left operand"⟩
  | _ => .error ⟨.typeError, "argument is not iterable"⟩

/-- The position an index names in a sequence. -/
def position (length : ℕ) : Decoded → Except PyExc ℕ
  | .str _ | .null | .float _ | .arr _ | .obj _ =>
    .error ⟨.typeError, "indices must be integers or slices"⟩
  | .bool b => if (if b then 1 else 0) < length then .ok (if b then 1 else 0)
    else .error ⟨.exception, "index out of range"⟩
  | .int n =>
    if 0 ≤ n ∧ n < length then .ok n.toNat
    else if n < 0 ∧ 0 ≤ length + n then .ok (length + n).toNat
    else .error ⟨.exception, "index out of range"⟩

/-- `container[index]`. -/
def item (container index : Decoded) : Except PyExc Decoded :=
  match container with
  | .obj fields => do
    match (← index.key).bind fun name => fields.lookup name with
    | some v => return v
    | none => .error ⟨.exception, "KeyError"⟩
  | .arr items => return items.getD (← index.position items.length) .null
  | .str s => return .str (String.singleton (s.toList.getD (← index.position s.length) ' '))
  | _ => .error ⟨.typeError, "object is not subscriptable"⟩

/-- `v.get(name, default)`. -/
def get (v : Decoded) (name : String) (default : Decoded) : Except PyExc Decoded :=
  match v with
  | .obj fields => .ok ((fields.lookup name).getD default)
  | _ => .error ⟨.attributeError, "object has no attribute 'get'"⟩

/-- A value that is no container, as an untyped response's. -/
def scalar : Decoded → Value
  | .null => .none
  | .bool b => .bool b
  | .int n => .int n
  | .float x => .float x
  | .str s => .str s
  | _ => .other

/-- `float(v)`. -/
def toFloat (v : Decoded) : Except PyExc PyFloat := v.scalar.toFloat

/-- `a - b`. -/
def sub (a b : Decoded) : Except PyExc Decoded :=
  let whole : Decoded → Option ℤ
    | .bool b => some (if b then 1 else 0)
    | .int n => some n
    | _ => none
  match whole a, whole b with
  | some m, some n => .ok (.int (m - n))
  | _, _ =>
    if (number a).isSome && (number b).isSome then do
      return .float ((← toFloat a).sub (← toFloat b))
    else .error ⟨.typeError, "unsupported operand type(s) for -"⟩

/-- `int(v)` of a number. -/
def toInt : Decoded → Except PyExc ℤ
  | .bool b => .ok (if b then 1 else 0)
  | .int n => .ok n
  | .float (.fin q) => .ok (q.num.tdiv q.den)
  | .float .nan => .error ⟨.valueError, "cannot convert float NaN to integer"⟩
  | .float _ => .error ⟨.exception, "cannot convert float infinity to integer"⟩
  | _ => .error ⟨.typeError, "int() argument must be a string or a real number"⟩

/-- `str(v)` of a number. -/
def numberText (format : Json.FloatFormat PyFloat) : Decoded → String
  | .int n => String.ofList (Json.intText n)
  | .float x => String.ofList (format.text x).chars
  | _ => ""

theorem eqv_str (a b : String) : eqv (.str a) (.str b) = (a == b) := by rw [eqv]

theorem item_obj_ok {fields : List (String × Decoded)} {index v : Decoded} :
    item (.obj fields) index = .ok v ↔
      ∃ name, index.key = .ok (some name) ∧ fields.lookup name = some v := by
  rw [item, bind_eq_ok]
  constructor
  · rintro ⟨name, hname, h⟩
    split at h
    · rename_i found hfound
      obtain rfl := Except.ok.inj h
      obtain ⟨name, rfl, hlookup⟩ := Option.bind_eq_some_iff.mp hfound
      exact ⟨name, hname, hlookup⟩
    · exact nomatch h
  · rintro ⟨name, hname, hlookup⟩
    refine ⟨some name, hname, ?_⟩
    simp only [Option.bind_some, hlookup]
    rfl

/-- What `int(v)` accepts is equal to itself. -/
theorem eqv_self_of_toInt {v : Decoded} {n : ℤ} (h : toInt v = .ok n) : eqv v v = true := by
  cases v with
  | bool b => simp [eqv, number, PyFloat.eqv]
  | int m => simp [eqv, number, PyFloat.eqv]
  | float x =>
    cases x with
    | fin q => simp [eqv, number, PyFloat.eqv]
    | _ => simp [toInt] at h
  | _ => simp [toInt] at h

end Decoded

/-! ## A text of floats -/

theorem decimal_ne_nil (n : ℕ) : Json.decimal n ≠ [] := by
  rw [Json.decimal]
  split_ifs <;> simp

/-- Floats by their numerator and denominator; a whole number as `repr` writes it. -/
def ratioFormat : Json.FloatFormat PyFloat where
  text
    | .nan => .nan
    | .posInf => .infinity
    | .negInf => .negInfinity
    | .fin q => .finite ⟨decide (q < 0), q.num.natAbs,
        some ⟨Json.decimal (q.den - 1), decimal_ne_nil _⟩, none, .inl rfl⟩
  ofText
    | .nan => .nan
    | .infinity => .posInf
    | .negInfinity => .negInf
    | .finite l =>
      let size : ℚ := l.whole / ((l.fraction.map fun ds => Json.digitsNat ds.1).getD 0 + 1 : ℕ)
      .fin (if l.negative then -size else size)
  ofText_text := by
    intro x
    cases x with
    | fin q =>
      have hden : q.den - 1 + 1 = q.den := Nat.succ_pred_eq_of_pos q.den_pos
      have hpos : (0 : ℚ) < q.den := Nat.cast_pos.mpr q.den_pos
      have hsize : ((q.num.natAbs : ℚ) / (q.den : ℚ)) = |q| := by
        conv_rhs => rw [← Rat.num_div_den q, abs_div, abs_of_pos hpos]
        rw [Nat.cast_natAbs, Int.cast_abs]
      simp only [Option.map_some, Option.getD_some, Json.digitsNat_decimal, hden, hsize,
        decide_eq_true_eq, PyFloat.fin.injEq]
      by_cases hq : q < 0
      · rw [if_pos hq, abs_of_neg hq, neg_neg]
      · rw [if_neg hq, abs_of_nonneg (not_lt.mp hq)]
    | _ => rfl

end Veridex.Py
