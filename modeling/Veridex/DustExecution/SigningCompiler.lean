import Veridex.Py.Text

/-!
# The order hash (`signing_compiler.py`, lines 60-180)

Keccak-256 as the compiler computes it, lane by lane, and the EIP-712 hash of an order over it
(`orderHashFromTypedData`). Bytes are lists of `UInt8`. The lanes are numbers without a bound, masked
where the source masks them. `str` of a value that is no text or number is taken as given (`textOf`).

A lane is written out in eight bytes. `keccak256OrRaise` raises where a lane does not fit, and
`keccak256` is its value.
-/

namespace Veridex.DustExecution

open Veridex.Py

/-! ## Bytes -/

/-- `int.from_bytes(data, "big")`. -/
def fromBytes (data : List UInt8) : ℕ :=
  data.foldl (fun n byte => 256 * n + byte.toNat) 0

/-- The lowest bytes of a number, the lowest first. -/
def littleBytes : ℕ → ℕ → List UInt8
  | 0, _ => []
  | k + 1, n => UInt8.ofNat (n % 256) :: littleBytes k (n / 256)

/-- `n.to_bytes(32, "big")`. -/
def toBytes32 (n : ℤ) : Except PyExc (List UInt8) :=
  if n < 0 then .error ⟨.exception, "can't convert negative int to unsigned"⟩
  else if n < 2 ^ 256 then .ok (littleBytes 32 n.toNat).reverse
  else .error ⟨.exception, "int too big to convert"⟩

/-- A hexadecimal digit, in lower case. -/
def hexChar (n : ℕ) : Char := Nat.digitChar n

/-- What a hexadecimal digit stands for, in either case. -/
def hexValue (c : Char) : Option ℕ :=
  if c.isDigit then some (c.toNat - '0'.toNat)
  else if 'a' ≤ c ∧ c ≤ 'f' then some (c.toNat - 'a'.toNat + 10)
  else if 'A' ≤ c ∧ c ≤ 'F' then some (c.toNat - 'A'.toNat + 10)
  else none

/-- The digits of some bytes. -/
def hexChars (data : List UInt8) : List Char :=
  data.flatMap fun byte => [hexChar (byte.toNat / 16), hexChar (byte.toNat % 16)]

/-- `data.hex()`. -/
def hex (data : List UInt8) : String := String.ofList (hexChars data)

/-- The blanks that `bytes.fromhex` passes over. -/
def isHexBlank (c : Char) : Bool := (9 ≤ c.toNat && c.toNat ≤ 13) || c = ' '

/-- `bytes.fromhex`, on the characters of the text: blanks may stand between two bytes. -/
def fromHexChars : List Char → Option (List UInt8)
  | [] => some []
  | c :: rest =>
    if isHexBlank c then fromHexChars rest
    else match rest with
      | [] => none
      | d :: rest => do
        let high ← hexValue c
        let low ← hexValue d
        let bytes ← fromHexChars rest
        return UInt8.ofNat (16 * high + low) :: bytes

/-- `bytes.fromhex(s)`. -/
def fromHex (s : String) : Except PyExc (List UInt8) :=
  match fromHexChars s.toList with
  | some data => .ok data
  | none => .error ⟨.valueError, "non-hexadecimal number found in fromhex() arg"⟩

/-! ## Keccak-256 -/

/-- `_KECCAK_RC`. -/
def keccakRc : List ℕ := [
  0x0000000000000001, 0x0000000000008082, 0x800000000000808A, 0x8000000080008000,
  0x000000000000808B, 0x0000000080000001, 0x8000000080008081, 0x8000000000008009,
  0x000000000000008A, 0x0000000000000088, 0x0000000080008009, 0x000000008000000A,
  0x000000008000808B, 0x800000000000008B, 0x8000000000008089, 0x8000000000008003,
  0x8000000000008002, 0x8000000000000080, 0x000000000000800A, 0x800000008000000A,
  0x8000000080008081, 0x8000000000008080, 0x0000000080000001, 0x8000000080008008]

/-- `_KECCAK_ROT`. -/
def keccakRot : List (List ℕ) := [
  [0, 36, 3, 41, 18],
  [1, 44, 10, 45, 2],
  [62, 6, 43, 15, 61],
  [28, 55, 25, 21, 56],
  [27, 20, 39, 8, 14]]

/-- `_MASK64`. -/
def mask64 : ℕ := 2 ^ 64 - 1

/-- `_rotl64`. -/
def rotl64 (x n : ℕ) : ℕ := ((x <<< n) ||| (x >>> (64 - n))) &&& mask64

/-- The element of a table. -/
def lane (a : List (List ℕ)) (x y : ℕ) : ℕ := (a.getD x []).getD y 0

/-- `a[x][y] = value`. -/
def setLane (a : List (List ℕ)) (x y value : ℕ) : List (List ℕ) :=
  a.set x ((a.getD x []).set y value)

/-- A table of five by five, by rows. -/
def lanes (f : ℕ → ℕ → ℕ) : List (List ℕ) :=
  (List.range 5).map fun x => (List.range 5).map (f x)

/-- `c`: the parities of the columns. -/
def columns (a : List (List ℕ)) : List ℕ :=
  (List.range 5).map fun x =>
    lane a x 0 ^^^ lane a x 1 ^^^ lane a x 2 ^^^ lane a x 3 ^^^ lane a x 4

/-- `d`: what each column is changed by. -/
def effects (c : List ℕ) : List ℕ :=
  (List.range 5).map fun x => c.getD ((x + 4) % 5) 0 ^^^ rotl64 (c.getD ((x + 1) % 5) 0) 1

/-- The lanes after `a[x][y] ^= d[x]`. -/
def mixed (a : List (List ℕ)) (d : List ℕ) : List (List ℕ) :=
  lanes fun x y => lane a x y ^^^ d.getD x 0

/-- `b`: the lanes, rotated and moved. -/
def moved (a : List (List ℕ)) : List (List ℕ) :=
  ((List.range 5).flatMap fun x => (List.range 5).map fun y => (x, y)).foldl
    (fun b (x, y) => setLane b y ((2 * x + 3 * y) % 5) (rotl64 (lane a x y) (lane keccakRot x y)))
    (lanes fun _ _ => 0)

/-- The lanes after the last loop of a round. `~u & v` holds the bits of `v` that `u` lacks. -/
def combined (b : List (List ℕ)) : List (List ℕ) :=
  lanes fun x y => lane b x y ^^^ Nat.ldiff (lane b ((x + 2) % 5) y) (lane b ((x + 1) % 5) y)

/-- One round of `_keccak_f1600`. -/
def keccakRound (a : List (List ℕ)) (rc : ℕ) : List (List ℕ) :=
  let a := combined (moved (mixed a (effects (columns a))))
  setLane a 0 0 (lane a 0 0 ^^^ rc)

/-- `_keccak_f1600`. -/
def keccakF1600 (a : List (List ℕ)) : List (List ℕ) := keccakRc.foldl keccakRound a

/-- The bytes of a block: 1088 bits. -/
def keccakRate : ℕ := 136

/-- The data with its padding: a one after it and a bit at the end of the last block. -/
def padded (data : List UInt8) : List UInt8 :=
  let filled := data ++ 1 :: List.replicate ((keccakRate - (data.length + 1) % keccakRate) % keccakRate) 0
  filled.dropLast ++ [filled.getLastD 0 ^^^ 0x80]

/-- A block, taken into the lanes. -/
def taken (a : List (List ℕ)) (block : List UInt8) : List (List ℕ) :=
  (List.range (keccakRate / 8)).foldl (fun a i =>
    setLane a (i % 5) (i / 5)
      (lane a (i % 5) (i / 5) ^^^ fromBytes ((block.drop (8 * i)).take 8).reverse)) a

/-- The lanes after a block. -/
def absorb (a : List (List ℕ)) (block : List UInt8) : List (List ℕ) := keccakF1600 (taken a block)

/-- The block at an offset. -/
def blockAt (data : List UInt8) (i : ℕ) : List UInt8 := (data.drop (keccakRate * i)).take keccakRate

/-- The lanes after some blocks of the data with its padding. -/
def absorbed (data : List UInt8) (blocks : ℕ) : List (List ℕ) :=
  (List.range blocks).foldl (fun a i => absorb a (blockAt (padded data) i)) (lanes fun _ _ => 0)

/-- The bytes of the lanes. One pass gives 200 of them. -/
def squeeze (a : List (List ℕ)) : List UInt8 :=
  (List.range 5).flatMap fun y => (List.range 5).flatMap fun x => littleBytes 8 (lane a x y)

/-- `n.to_bytes(8, "little")`. -/
def toBytes8 (n : ℕ) : Except PyExc (List UInt8) :=
  if n < 2 ^ 64 then .ok (littleBytes 8 n) else .error ⟨.exception, "int too big to convert"⟩

/-- The bytes of the lanes, where each of them fits. -/
def squeezeOrRaise (a : List (List ℕ)) : Except PyExc (List UInt8) := do
  let words ← ((List.range 5).flatMap fun y => (List.range 5).map fun x => lane a x y).mapM toBytes8
  return words.flatten

/-- The lanes after all of the data. -/
def finalLanes (data : List UInt8) : List (List ℕ) :=
  absorbed data ((padded data).length / keccakRate)

/-- `keccak256`, with the conversions that may overflow. -/
def keccak256OrRaise (data : List UInt8) : Except PyExc (List UInt8) := do
  return (← squeezeOrRaise (finalLanes data)).take 32

/-- `keccak256`. -/
def keccak256 (data : List UInt8) : List UInt8 := (squeeze (finalLanes data)).take 32

/-! ## The order hash -/

/-- `text.encode("utf-8")`. -/
def encode (text : String) : List UInt8 := text.toUTF8.data.toList

/-- `v[key]`. -/
def item (v : Value) (key : String) : Except PyExc Value :=
  match v with
  | .dict items => match items.lookup key with
    | some value => .ok value
    | none => .error ⟨.exception, pyRepr key⟩
  | _ => .error ⟨.typeError, "object is not subscriptable"⟩

/-- The hexadecimal digits that open a text, with single underscores between them, and the rest. -/
def takeHexDigits : List Char → List ℕ × List Char
  | [] => ([], [])
  | c :: rest =>
    match hexValue c, rest with
    | none, _ => ([], c :: rest)
    | some n, '_' :: d :: rest =>
      if (hexValue d).isSome then
        let (digits, rest) := takeHexDigits (d :: rest)
        (n :: digits, rest)
      else ([n], '_' :: d :: rest)
    | some n, rest =>
      let (digits, rest) := takeHexDigits rest
      (n :: digits, rest)

/-- `int(s, 16)`. -/
def intOfHex (s : String) : Except PyExc ℤ :=
  let (negative, body) := takeSign (strip s).toList
  let body := match body with
    | '0' :: x :: '_' :: rest => if x = 'x' ∨ x = 'X' then rest else body
    | '0' :: x :: rest => if x = 'x' ∨ x = 'X' then rest else body
    | body => body
  match takeHexDigits body with
  | ([], _) | (_, _ :: _) => .error ⟨.valueError, "invalid literal for int() with base 16"⟩
  | (digits, []) =>
    let n : ℤ := (digits.foldl (fun n digit => 16 * n + digit) 0 : ℕ)
    .ok (if negative then -n else n)

/-- `_u256(int(value))`. -/
def u256 (value : Value) : Except PyExc (List UInt8) := do
  toBytes32 (← value.toInt)

/-- `_addr32`. -/
def addr32 (value : String) : Except PyExc (List UInt8) := do
  toBytes32 (← intOfHex value)

/-- `s.zfill(width)`: the zeros stand after a sign. -/
def zfill (s : String) (width : ℕ) : String :=
  let zeros := List.replicate (width - s.length) '0'
  match s.toList with
  | '+' :: rest => String.ofList ('+' :: zeros ++ rest)
  | '-' :: rest => String.ofList ('-' :: zeros ++ rest)
  | chars => String.ofList (zeros ++ chars)

/-- `value.replace("0x", "")`, on the characters of the text. -/
def withoutHexMarks : List Char → List Char
  | '0' :: 'x' :: rest => withoutHexMarks rest
  | c :: rest => c :: withoutHexMarks rest
  | [] => []

/-- `_bytes32`. -/
def bytes32 (value : String) : Except PyExc (List UInt8) :=
  fromHex (zfill (String.ofList (withoutHexMarks value.toList)) 64)

/-- `_ORDER_TYPE_HASH`. -/
def orderTypeHash : List UInt8 := keccak256 (encode (
  "Order(uint256 salt,address maker,address signer,uint256 tokenId," ++
  "uint256 makerAmount,uint256 takerAmount,uint8 side,uint8 signatureType," ++
  "uint256 timestamp,bytes32 metadata,bytes32 builder)"))

/-- `_DOMAIN_TYPE_HASH`. -/
def domainTypeHash : List UInt8 := keccak256 (encode
  "EIP712Domain(string name,string version,uint256 chainId,address verifyingContract)")

section Preimages

variable (textOf : Value → String)

/-- `str(v[key])`. -/
def itemText (v : Value) (key : String) : Except PyExc String := do
  return (← item v key).text textOf

/-- What `domain_separator` hashes. -/
def domainPreimage (domain : Value) : Except PyExc (List UInt8) := do
  let name := keccak256 (encode (← itemText textOf domain "name"))
  let version := keccak256 (encode (← itemText textOf domain "version"))
  let chainId ← u256 (← item domain "chainId")
  let verifyingContract ← addr32 (← itemText textOf domain "verifyingContract")
  return domainTypeHash ++ name ++ version ++ chainId ++ verifyingContract

/-- The eleven words of the order struct. -/
def structWords (message : Value) : Except PyExc (List UInt8) := do
  let salt ← u256 (← item message "salt")
  let maker ← addr32 (← itemText textOf message "maker")
  let signer ← addr32 (← itemText textOf message "signer")
  let tokenId ← u256 (← item message "tokenId")
  let makerAmount ← u256 (← item message "makerAmount")
  let takerAmount ← u256 (← item message "takerAmount")
  let side ← u256 (← item message "side")
  let signatureType ← u256 (← item message "signatureType")
  let timestamp ← u256 (← item message "timestamp")
  let metadata ← bytes32 (← itemText textOf message "metadata")
  let builder ← bytes32 (← itemText textOf message "builder")
  return salt ++ maker ++ signer ++ tokenId ++ makerAmount ++ takerAmount ++ side ++ signatureType ++
    timestamp ++ metadata ++ builder

/-- What `struct_hash` hashes. -/
def structPreimage (message : Value) : Except PyExc (List UInt8) := do
  return orderTypeHash ++ (← structWords textOf message)

/-- The bytes of the order hash, `keccak(0x1901 || domainSeparator || structHash)`. -/
def orderHash (typedData : Value) : Except PyExc (List UInt8) := do
  let domain ← item typedData "domain"
  let message ← item typedData "message"
  let domainSeparator := keccak256 (← domainPreimage textOf domain)
  let structHash := keccak256 (← structPreimage textOf message)
  return keccak256 ([0x19, 0x01] ++ domainSeparator ++ structHash)

end Preimages

/-- `order_hash_from_typed_data`. -/
def orderHashFromTypedData (textOf : Value → String) (typedData : Value) : Except PyExc String := do
  return "0x" ++ hex (← orderHash textOf typedData)

end Veridex.DustExecution
