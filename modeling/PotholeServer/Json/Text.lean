import Mathlib.Data.List.Basic

/-!
# Text of bytes

Python strings, which may hold surrogates that stand alone, and the decoding that `json.loads` does
before it parses: the encoding is told from the first bytes, and surrogates pass.
-/

namespace PotholeServer

/-- A code point: a character, or a surrogate that stands alone. -/
inductive PyChar where
  | char (c : Char)
  | surrogate (n : Fin 0x800)
  deriving DecidableEq, Repr

/-- `str` -/
abbrev PyStr := List PyChar

/-- The code points of a string of characters. -/
def PyStr.ofChars (cs : List Char) : PyStr := cs.map .char

/-- `chr(n)`, for a code point. -/
def PyChar.ofCode (n : Nat) : PyChar :=
  if 0xD800 ≤ n ∧ n < 0xE000 then .surrogate (Fin.ofNat 0x800 (n - 0xD800))
  else .char (Char.ofNat n)

/-- `ord(c)` -/
def PyChar.code : PyChar → Nat
  | .char c => c.toNat
  | .surrogate n => 0xD800 + n

/-- The characters of a string without surrogates. -/
def PyStr.chars? : PyStr → Option (List Char)
  | [] => some []
  | .char c :: rest => (chars? rest).map (c :: ·)
  | .surrogate _ :: _ => none

/-- A string of characters has its characters. -/
@[simp] theorem PyStr.chars?_ofChars (cs : List Char) : chars? (ofChars cs) = some cs := by
  induction cs with
  | nil => rfl
  | cons c cs ih =>
    rw [ofChars, List.map_cons, chars?, ← ofChars, ih, Option.map_some]

namespace PyStr

/-! ### Surrogate pairs -/

/-- A leading surrogate. -/
def isHighSurrogate (n : Nat) : Bool := 0xD800 ≤ n ∧ n < 0xDC00

/-- A trailing surrogate. -/
def isLowSurrogate (n : Nat) : Bool := 0xDC00 ≤ n ∧ n < 0xE000

/-- `Py_UNICODE_JOIN_SURROGATES` -/
def joinSurrogates (high low : Nat) : Nat :=
  0x10000 + (high - 0xD800) * 0x400 + (low - 0xDC00)

/-- Code units of UTF-16; surrogates that do not pair up pass. -/
def ofUnits : List Nat → PyStr
  | [] => []
  | [u] => [.ofCode u]
  | u :: v :: rest =>
    if isHighSurrogate u ∧ isLowSurrogate v then .ofCode (joinSurrogates u v) :: ofUnits rest
    else .ofCode u :: ofUnits (v :: rest)

/-! ### Codecs -/

/-- The bytes after the first one of a character. -/
def isTail (b : UInt8) : Bool := 0x80 ≤ b ∧ b < 0xC0

/-- Append the six bits of such a byte. -/
def addTail (n : Nat) (b : UInt8) : Nat := n * 64 + (b.toNat - 0x80)

/-- `bytes.decode("utf-8", "surrogatepass")` -/
def decodeUtf8 : List UInt8 → Option PyStr
  | [] => some []
  | a :: as =>
    if a < 0x80 then (decodeUtf8 as).map (.ofCode a.toNat :: ·)
    else match as with
    | [] => none
    | b :: bs =>
      if 0xC2 ≤ a ∧ a < 0xE0 ∧ isTail b then
        (decodeUtf8 bs).map (.ofCode (addTail (a.toNat - 0xC0) b) :: ·)
      else match bs with
      | [] => none
      | c :: cs =>
        let n := addTail (addTail (a.toNat - 0xE0) b) c
        if 0xE0 ≤ a ∧ a < 0xF0 ∧ isTail b ∧ isTail c ∧ 0x800 ≤ n then
          (decodeUtf8 cs).map (.ofCode n :: ·)
        else match cs with
        | [] => none
        | d :: ds =>
          let n := addTail (addTail (addTail (a.toNat - 0xF0) b) c) d
          if 0xF0 ≤ a ∧ isTail b ∧ isTail c ∧ isTail d ∧ 0x10000 ≤ n ∧ n < 0x110000 then
            (decodeUtf8 ds).map (.ofCode n :: ·)
          else none

/-- The order of the bytes of a code unit. -/
inductive ByteOrder where
  | big
  | little
  deriving DecidableEq, Repr

/-- The number that bytes stand for. -/
def ByteOrder.value (order : ByteOrder) (bytes : List UInt8) : Nat :=
  let bigEndian := match order with
    | .big => bytes
    | .little => bytes.reverse
  bigEndian.foldl (fun n b ↦ n * 256 + b.toNat) 0

/-- The code units of two bytes each. -/
def units16 (order : ByteOrder) : List UInt8 → Option (List Nat)
  | [] => some []
  | [_] => none
  | a :: b :: rest => (units16 order rest).map (order.value [a, b] :: ·)

/-- `bytes.decode("utf-16-be", "surrogatepass")`, or `-le` -/
def decodeUtf16 (order : ByteOrder) (bytes : List UInt8) : Option PyStr :=
  (units16 order bytes).map ofUnits

/-- `bytes.decode("utf-32-be", "surrogatepass")`, or `-le` -/
def decodeUtf32 (order : ByteOrder) : List UInt8 → Option PyStr
  | [] => some []
  | a :: b :: c :: d :: rest =>
    let n := order.value [a, b, c, d]
    if n < 0x110000 then (decodeUtf32 order rest).map (.ofCode n :: ·) else none
  | _ => none

/-- The encodings that `json.detect_encoding` tells apart. -/
inductive Encoding where
  | utf8
  | utf8Sig
  | utf16
  | utf16Order (order : ByteOrder)
  | utf32
  | utf32Order (order : ByteOrder)
  deriving DecidableEq, Repr

/-- `json.detect_encoding` -/
def detectEncoding (b : List UInt8) : Encoding :=
  if [0x00, 0x00, 0xFE, 0xFF] <+: b ∨ [0xFF, 0xFE, 0x00, 0x00] <+: b then .utf32
  else if [0xFE, 0xFF] <+: b ∨ [0xFF, 0xFE] <+: b then .utf16
  else if [0xEF, 0xBB, 0xBF] <+: b then .utf8Sig
  else match b with
  | b₀ :: b₁ :: b₂ :: b₃ :: _ =>
    if b₀ = 0 then if b₁ ≠ 0 then .utf16Order .big else .utf32Order .big
    else if b₁ = 0 then if b₂ ≠ 0 ∨ b₃ ≠ 0 then .utf16Order .little else .utf32Order .little
    else .utf8
  | [b₀, b₁] =>
    if b₀ = 0 then .utf16Order .big
    else if b₁ = 0 then .utf16Order .little
    else .utf8
  | _ => .utf8

/-- `bytes.decode(encoding, "surrogatepass")`; `none` is a `UnicodeDecodeError`. A codec without a
byte order takes it from the mark that the bytes start with. -/
def decode (encoding : Encoding) (bytes : List UInt8) : Option PyStr :=
  match encoding with
  | .utf8 => decodeUtf8 bytes
  | .utf8Sig => decodeUtf8 (bytes.drop 3)
  | .utf16 =>
    decodeUtf16 (if [0xFE, 0xFF] <+: bytes then .big else .little) (bytes.drop 2)
  | .utf16Order order => decodeUtf16 order bytes
  | .utf32 =>
    decodeUtf32 (if [0x00, 0x00, 0xFE, 0xFF] <+: bytes then .big else .little) (bytes.drop 4)
  | .utf32Order order => decodeUtf32 order bytes

end PyStr

end PotholeServer
