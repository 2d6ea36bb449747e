import Mathlib.Data.List.TakeWhile
import PotholeServer.Json.Text
import PotholeServer.Json.Value

/-!
# The JSON codec of Python

`json.loads` of Python 3.12 on bytes, with the scanner of `_json.c`, and `json.dumps`. The scanner
takes more than the JSON grammar: `NaN` and the infinities, and surrogates that stand alone; and it
refuses some documents: integers of more digits than `int` reads, and documents that nest deeper
than the interpreter recurses. All its errors are `ValueError`s except the last one.

The scanner goes on with a suffix of what it is given, so that the length of the text bounds the
number of its steps; and a document that does not nest too deep is parsed in the same way whatever
the bound is.
-/

namespace PotholeServer

/-- `float`: a number, or what arithmetic has instead of one. -/
inductive PyFloat (R : Type) where
  | finite (x : R)
  | nan
  | inf (negative : Bool)
  deriving DecidableEq, Repr

/-- What `json.loads` returns. -/
inductive PyValue (R : Type) where
  | null
  | bool (b : Bool)
  | int (n : Int)
  | float (x : PyFloat R)
  | str (s : PyStr)
  | list (items : List (PyValue R))
  | dict (members : List (PyStr × PyValue R))

/-- What `json.loads` raises. A `JSONDecodeError` names a place of the text, given here by the
number of characters that are left there. -/
inductive LoadsError where
  | unicodeDecodeError
  | jsonDecodeError (msg : String) (left : Nat)
  | intDigits
  | recursionError
  | outOfFuel
  deriving DecidableEq, Repr

/-- The error is a `ValueError`. -/
def LoadsError.isValueError : LoadsError → Bool
  | .unicodeDecodeError | .jsonDecodeError .. | .intDigits => true
  | .recursionError | .outOfFuel => false

namespace PyStr

/-! ### Characters -/

/-- The text after a character that it starts with. -/
def after (c : Char) : PyStr → Option PyStr
  | .char d :: rest => if d = c then some rest else none
  | _ => none

/-- The text after a word that it starts with. -/
def afterWord : List Char → PyStr → Option PyStr
  | [], s => some s
  | c :: cs, s => (after c s).bind (afterWord cs)

/-- `WHITESPACE` -/
def isJsonSpace : PyChar → Bool
  | .char c => c = ' ' ∨ c = '\t' ∨ c = '\n' ∨ c = '\r'
  | .surrogate _ => false

/-- The text after white space. -/
def skip (s : PyStr) : PyStr := s.dropWhile isJsonSpace

/-- The digits that the text starts with, and the text after them. -/
def takeDigits : PyStr → List Char × PyStr
  | .char c :: rest =>
    if c.isDigit then (c :: (takeDigits rest).1, (takeDigits rest).2) else ([], .char c :: rest)
  | s => ([], s)

/-! ### Strings -/

/-- A hexadecimal digit. -/
def hexDigit? : PyChar → Option Nat
  | .char c =>
    if c.isDigit then some (c.toNat - '0'.toNat)
    else if 'a' ≤ c ∧ c ≤ 'f' then some (c.toNat - 'a'.toNat + 10)
    else if 'A' ≤ c ∧ c ≤ 'F' then some (c.toNat - 'A'.toNat + 10)
    else none
  | .surrogate _ => none

/-- Four hexadecimal digits, and the text after them. -/
def scanHex4 : PyStr → Option (Nat × PyStr)
  | a :: b :: c :: d :: rest => do
    let a ← hexDigit? a
    let b ← hexDigit? b
    let c ← hexDigit? c
    let d ← hexDigit? d
    some (((a * 16 + b) * 16 + c) * 16 + d, rest)
  | _ => none

/-- What `\` and a character other than `u` stand for. -/
def simpleEscape : PyChar → Option Char
  | .char c =>
    if c = '"' ∨ c = '\\' ∨ c = '/' then some c
    else if c = 'b' then some (Char.ofNat 8)
    else if c = 'f' then some (Char.ofNat 12)
    else if c = 'n' then some '\n'
    else if c = 'r' then some '\r'
    else if c = 't' then some '\t'
    else none
  | .surrogate _ => none

/-- `\uXXXX` from behind the `u`, with the `\uXXXX` of its trailing surrogate. The scanner wants a
character after the digits. -/
def scanUnicodeEscape (s : PyStr) : Except LoadsError (PyChar × PyStr) :=
  match if 4 < s.length then scanHex4 s else none with
  | none => .error (.jsonDecodeError "Invalid \\uXXXX escape" (s.length + 1))
  | some (high, rest) =>
    match if isHighSurrogate high ∧ 6 < rest.length then afterWord ['\\', 'u'] rest else none with
    | none => .ok (.ofCode high, rest)
    | some rest' =>
      match scanHex4 rest' with
      | none => .error (.jsonDecodeError "Invalid \\uXXXX escape" (rest'.length + 1))
      | some (low, rest'') =>
        if isLowSurrogate low then .ok (.ofCode (joinSurrogates high low), rest'')
        else .ok (.ofCode high, rest)

/-- An escape from behind the `\`; `start` is what is left at the start of the string. -/
def scanEscape (start : Nat) : PyStr → Except LoadsError (PyChar × PyStr)
  | [] => .error (.jsonDecodeError "Unterminated string starting at" start)
  | c :: rest =>
    if c = .char 'u' then scanUnicodeEscape rest
    else match simpleEscape c with
    | some d => .ok (.char d, rest)
    | none => .error (.jsonDecodeError "Invalid \\escape" (rest.length + 2))

/-- `scanstring` from behind the opening quote. -/
def scanString (start : Nat) : Nat → PyStr → Except LoadsError (PyStr × PyStr)
  | 0, _ => .error .outOfFuel
  | _ + 1, [] => .error (.jsonDecodeError "Unterminated string starting at" start)
  | fuel + 1, c :: rest =>
    if c = .char '"' then .ok ([], rest)
    else if c = .char '\\' then do
      let (d, rest) ← scanEscape start rest
      let (ds, rest) ← scanString start fuel rest
      .ok (d :: ds, rest)
    else if c.code ≤ 0x1F then
      .error (.jsonDecodeError "Invalid control character at" (rest.length + 1))
    else do
      let (ds, rest) ← scanString start fuel rest
      .ok (c :: ds, rest)

/-! ### Numbers -/

/-- The integer part of a number: a zero alone, or digits that start with another one. -/
def scanInteger (s : PyStr) : Option (List Char × PyStr) :=
  match after '0' s with
  | some rest => some (['0'], rest)
  | none =>
    match takeDigits s with
    | ([], _) => none
    | digits => some digits

/-- `.` and digits, or nothing. -/
def scanFraction (s : PyStr) : List Char × PyStr :=
  match after '.' s with
  | none => ([], s)
  | some rest =>
    match takeDigits rest with
    | ([], _) => ([], s)
    | (digits, rest) => ('.' :: digits, rest)

/-- A sign among the given ones, or none. -/
def scanSign (signs : List Char) : PyStr → List Char × PyStr
  | .char c :: rest => if c ∈ signs then ([c], rest) else ([], .char c :: rest)
  | s => ([], s)

/-- `e`, a sign and digits, or nothing. -/
def scanExponent (s : PyStr) : List Char × PyStr :=
  match scanSign ['e', 'E'] s with
  | ([], _) => ([], s)
  | (e, rest) =>
    match takeDigits (scanSign ['-', '+'] rest).2 with
    | ([], _) => ([], s)
    | (digits, rest') => (e ++ (scanSign ['-', '+'] rest).1 ++ digits, rest')

/-- The number that digits stand for. -/
def ofDigits (digits : List Char) : Nat :=
  digits.foldl (fun n c ↦ n * 10 + (c.toNat - '0'.toNat)) 0

/-- `sys.get_int_max_str_digits()` -/
def intMaxStrDigits : Nat := 4300

end PyStr

namespace PyValue

open PyStr

variable {R : Type} (readFloat : List Char → PyFloat R)

/-- `_match_number_unicode`; `readFloat` is `float` on the text of a number. -/
def matchNumber (s : PyStr) : Except LoadsError (PyValue R × PyStr) :=
  let (sign, body) := scanSign ['-'] s
  match scanInteger body with
  | none => .error (.jsonDecodeError "Expecting value" s.length)
  | some (digits, rest) =>
    let (fraction, rest) := scanFraction rest
    let (exponent, rest) := scanExponent rest
    if fraction = [] ∧ exponent = [] then
      if intMaxStrDigits < digits.length then .error .intDigits
      else .ok (.int (if sign = [] then ofDigits digits else -ofDigits digits), rest)
    else .ok (.float (readFloat (sign ++ digits ++ fraction ++ exponent)), rest)

/-- `null`, `true`, `false`, `NaN` and the infinities. -/
def namedConstants : List (List Char × PyValue R) :=
  [("null".toList, .null), ("true".toList, .bool true), ("false".toList, .bool false),
    ("NaN".toList, .float .nan), ("Infinity".toList, .float (.inf false)),
    ("-Infinity".toList, .float (.inf true))]

/-- The constant that the text starts with. -/
def scanConstant (s : PyStr) : Option (PyValue R × PyStr) :=
  namedConstants.findSome? fun (name, value) ↦ (afterWord name s).map (value, ·)

/-! ### Values -/

mutual

/-- `scan_once_unicode`; arrays and objects may nest `depth` deep. -/
def scanOnce : Nat → Nat → PyStr → Except LoadsError (PyValue R × PyStr)
  | 0, _, _ => .error .outOfFuel
  | fuel + 1, depth, s =>
    match after '"' s with
    | some rest => do
      let (chars, rest) ← scanString s.length (rest.length + 1) rest
      .ok (.str chars, rest)
    | none =>
      match after '{' s with
      | some rest =>
        match depth with
        | 0 => .error .recursionError
        | depth + 1 =>
          match after '}' (skip rest) with
          | some rest => .ok (.dict [], rest)
          | none => parseObject fuel depth [] (skip rest)
      | none =>
        match after '[' s with
        | some rest =>
          match depth with
          | 0 => .error .recursionError
          | depth + 1 =>
            match after ']' (skip rest) with
            | some rest => .ok (.list [], rest)
            | none => parseArray fuel depth [] (skip rest)
        | none =>
          match scanConstant s with
          | some result => .ok result
          | none => matchNumber readFloat s

/-- The loop of `_parse_array_unicode`. -/
def parseArray : Nat → Nat → List (PyValue R) → PyStr → Except LoadsError (PyValue R × PyStr)
  | 0, _, _, _ => .error .outOfFuel
  | fuel + 1, depth, items, s => do
    let (item, rest) ← scanOnce fuel depth s
    match after ']' (skip rest) with
    | some rest => .ok (.list (items ++ [item]), rest)
    | none =>
      match after ',' (skip rest) with
      | some rest => parseArray fuel depth (items ++ [item]) (skip rest)
      | none => .error (.jsonDecodeError "Expecting ',' delimiter" (skip rest).length)

/-- The loop of `_parse_object_unicode`. -/
def parseObject :
    Nat → Nat → List (PyStr × PyValue R) → PyStr → Except LoadsError (PyValue R × PyStr)
  | 0, _, _, _ => .error .outOfFuel
  | fuel + 1, depth, members, s =>
    match after '"' s with
    | none =>
      .error (.jsonDecodeError "Expecting property name enclosed in double quotes" s.length)
    | some rest => do
      let (name, rest) ← scanString s.length (rest.length + 1) rest
      match after ':' (skip rest) with
      | none => .error (.jsonDecodeError "Expecting ':' delimiter" (skip rest).length)
      | some rest => do
        let (value, rest) ← scanOnce fuel depth (skip rest)
        match after '}' (skip rest) with
        | some rest => .ok (.dict (setItem name value members), rest)
        | none =>
          match after ',' (skip rest) with
          | some rest => parseObject fuel depth (setItem name value members) (skip rest)
          | none => .error (.jsonDecodeError "Expecting ',' delimiter" (skip rest).length)

end

/-- `JSONDecoder.decode` -/
def decode (depth : Nat) (s : PyStr) : Except LoadsError (PyValue R) := do
  let (value, rest) ← scanOnce readFloat (2 * s.length + 1) depth (skip s)
  match skip rest with
  | [] => .ok value
  | extra => .error (.jsonDecodeError "Extra data" extra.length)

/-- `json.loads`, with room for `depth` arrays and objects in each other. -/
def loads (depth : Nat) (bytes : List UInt8) : Except LoadsError (PyValue R) :=
  match PyStr.decode (detectEncoding bytes) bytes with
  | none => .error .unicodeDecodeError
  | some s => decode readFloat depth s

end PyValue

/-! ### Printing -/

namespace PyStr

/-- A code unit in four hexadecimal digits. -/
def hex4 (n : Nat) : List Char :=
  [n / 0x1000 % 16, n / 0x100 % 16, n / 0x10 % 16, n % 16].map Nat.digitChar

/-- A character in `py_encode_basestring_ascii`. -/
def escapeAscii (c : PyChar) : List Char :=
  if c = .char '"' then ['\\', '"']
  else if c = .char '\\' then ['\\', '\\']
  else if 0x20 ≤ c.code ∧ c.code ≤ 0x7E then [Char.ofNat c.code]
  else if c = .char '\n' then ['\\', 'n']
  else if c = .char '\r' then ['\\', 'r']
  else if c = .char '\t' then ['\\', 't']
  else if c.code = 8 then ['\\', 'b']
  else if c.code = 12 then ['\\', 'f']
  else if c.code < 0x10000 then '\\' :: 'u' :: hex4 c.code
  else
    '\\' :: 'u' :: hex4 (0xD800 + (c.code - 0x10000) / 0x400) ++
      '\\' :: 'u' :: hex4 (0xDC00 + (c.code - 0x10000) % 0x400)

/-- A string in `json.dumps`. -/
def dumps (s : PyStr) : List Char := '"' :: s.flatMap escapeAscii ++ ['"']

end PyStr

namespace PyValue

variable {R : Type} (repr : R → List Char)

/-- A float in `json.dumps`; `repr` is `float.__repr__` of a number. -/
def dumpsFloat : PyFloat R → List Char
  | .finite x => repr x
  | .nan => "NaN".toList
  | .inf false => "Infinity".toList
  | .inf true => "-Infinity".toList

mutual

/-- `json.dumps` -/
def dumps : PyValue R → List Char
  | .null => "null".toList
  | .bool true => "true".toList
  | .bool false => "false".toList
  | .int n => (toString n).toList
  | .float x => dumpsFloat repr x
  | .str s => s.dumps
  | .list items => '[' :: dumpsItems items ++ [']']
  | .dict members => '{' :: dumpsMembers members ++ ['}']

/-- `dumps` on the items of a list. -/
def dumpsItems : List (PyValue R) → List Char
  | [] => []
  | [item] => dumps item
  | item :: items => dumps item ++ ',' :: ' ' :: dumpsItems items

/-- `dumps` on the members of a dictionary. -/
def dumpsMembers : List (PyStr × PyValue R) → List Char
  | [] => []
  | [(name, value)] => name.dumps ++ ':' :: ' ' :: dumps value
  | (name, value) :: members =>
    name.dumps ++ ':' :: ' ' :: dumps value ++ ',' :: ' ' :: dumpsMembers members

end

end PyValue

/-! ### Scans shrink their text -/

/-- A scan of `n` characters does not run out of fuel, and leaves fewer of them. -/
def Shrinks {α : Type} (n : Nat) (x : Except LoadsError (α × PyStr)) : Prop :=
  match x with
  | .ok (_, rest) => rest.length < n
  | .error e => e ≠ .outOfFuel

theorem Shrinks.mono {α : Type} {n m : Nat} {x : Except LoadsError (α × PyStr)} (hx : Shrinks n x)
    (h : n ≤ m) : Shrinks m x := by
  cases x with
  | error e => exact hx
  | ok r => exact Nat.lt_of_lt_of_le hx h

theorem Shrinks.bind {α β : Type} {n : Nat} {x : Except LoadsError (α × PyStr)}
    {f : α × PyStr → Except LoadsError (β × PyStr)} (hx : Shrinks n x)
    (hf : ∀ a rest, rest.length < n → Shrinks n (f (a, rest))) : Shrinks n (x >>= f) := by
  cases x with
  | error e => exact hx
  | ok r => exact hf r.1 r.2 hx

namespace PyStr

theorem length_after {c : Char} {s rest : PyStr} (h : after c s = some rest) :
    s.length = rest.length + 1 := by
  unfold after at h
  split at h
  · split at h
    · rw [← Option.some_inj.mp h, List.length_cons]
    · cases h
  · cases h

theorem length_afterWord {word : List Char} {s rest : PyStr} (h : afterWord word s = some rest) :
    s.length = rest.length + word.length := by
  induction word generalizing s with
  | nil =>
    rw [afterWord, Option.some_inj] at h
    rw [h, List.length_nil, Nat.add_zero]
  | cons c cs ih =>
    rw [afterWord, Option.bind_eq_some_iff] at h
    obtain ⟨s', hafter, hrest⟩ := h
    rw [length_after hafter, ih hrest, List.length_cons, Nat.add_assoc]

theorem length_skip_le (s : PyStr) : (skip s).length ≤ s.length :=
  List.length_dropWhile_le ..

/-- Every digit is a character of the text. -/
theorem length_takeDigits (s : PyStr) :
    (takeDigits s).1.length + (takeDigits s).2.length = s.length := by
  induction s with
  | nil => rfl
  | cons c rest ih =>
    cases c with
    | surrogate n => simp [takeDigits]
    | char c =>
      unfold takeDigits
      split
      · simp only [List.length_cons]
        omega
      · simp

theorem length_scanHex4 {s rest : PyStr} {n : Nat} (h : scanHex4 s = some (n, rest)) :
    s.length = rest.length + 4 := by
  unfold scanHex4 at h
  split at h
  · simp only [Option.bind_eq_bind, Option.bind_eq_some_iff, Option.some_inj, Prod.mk.injEq] at h
    obtain ⟨_, -, _, -, _, -, _, -, -, rfl⟩ := h
    simp only [List.length_cons]
  · cases h

theorem shrinks_scanUnicodeEscape (s : PyStr) : Shrinks s.length (scanUnicodeEscape s) := by
  unfold scanUnicodeEscape
  split
  · simp [Shrinks]
  · next high rest hhigh =>
    have hlength : s.length = rest.length + 4 := by
      split at hhigh
      · exact length_scanHex4 hhigh
      · cases hhigh
    split
    · simp only [Shrinks]
      omega
    · next rest' hlow =>
      have hlength' : rest.length = rest'.length + 2 := by
        split at hlow
        · exact length_afterWord hlow
        · cases hlow
      split
      · simp [Shrinks]
      · next low rest'' hrest'' =>
        have hlength'' := length_scanHex4 hrest''
        split <;> simp only [Shrinks] <;> omega

theorem shrinks_scanEscape (start : Nat) (s : PyStr) : Shrinks s.length (scanEscape start s) := by
  unfold scanEscape
  split
  · simp [Shrinks]
  · next c rest =>
    split
    · exact (shrinks_scanUnicodeEscape rest).mono (Nat.le_succ _)
    · split
      · simp [Shrinks]
      · simp [Shrinks]

theorem shrinks_scanString (start : Nat) {fuel : Nat} {s : PyStr} (h : s.length < fuel) :
    Shrinks s.length (scanString start fuel s) := by
  induction fuel generalizing s with
  | zero => exact absurd h (Nat.not_lt_zero _)
  | succ fuel ih =>
    cases s with
    | nil => simp [scanString, Shrinks]
    | cons c rest =>
      rw [List.length_cons] at h ⊢
      have hstep : ∀ (d : PyChar) (rest' : PyStr), rest'.length < rest.length + 1 →
          Shrinks (rest.length + 1) (do
            let (ds, rest) ← scanString start fuel rest'
            .ok (d :: ds, rest)) := by
        intro d rest' hrest'
        refine ((ih (by omega)).mono (Nat.le_of_lt hrest')).bind ?_
        intro ds rest'' hrest''
        exact hrest''
      unfold scanString
      split
      · simp [Shrinks]
      · split
        · refine ((shrinks_scanEscape start rest).mono (Nat.le_succ _)).bind ?_
          intro d rest' hrest'
          exact hstep d rest' hrest'
        · split
          · simp [Shrinks]
          · exact hstep c rest (Nat.lt_succ_self _)

theorem length_scanSign (signs : List Char) (s : PyStr) :
    (scanSign signs s).1.length + (scanSign signs s).2.length = s.length := by
  unfold scanSign
  split
  · split
    · simp only [List.length_cons, List.length_nil]
      omega
    · simp
  · simp

theorem length_scanInteger {s rest : PyStr} {digits : List Char}
    (h : scanInteger s = some (digits, rest)) : rest.length < s.length := by
  unfold scanInteger at h
  split at h
  · next hzero =>
    obtain ⟨-, rfl⟩ := Prod.mk.inj (Option.some_inj.mp h)
    rw [length_after hzero]
    exact Nat.lt_succ_self _
  · have hdigits := length_takeDigits s
    cases htake : takeDigits s with
    | mk ds rest' =>
      rw [htake] at h hdigits
      cases ds with
      | nil => cases h
      | cons d ds =>
        cases h
        rw [List.length_cons] at hdigits
        dsimp only at hdigits
        omega

theorem length_scanFraction_le (s : PyStr) : (scanFraction s).2.length ≤ s.length := by
  unfold scanFraction
  split
  · exact Nat.le_refl _
  · next rest hpoint =>
    have hdigits := length_takeDigits rest
    have hlength := length_after hpoint
    split
    · exact Nat.le_refl _
    · next digits rest' _ htake =>
      rw [htake] at hdigits
      dsimp only at hdigits ⊢
      omega

theorem length_scanExponent_le (s : PyStr) : (scanExponent s).2.length ≤ s.length := by
  have he := length_scanSign ['e', 'E'] s
  unfold scanExponent
  split
  · exact Nat.le_refl _
  · next e rest _ hscan =>
    rw [hscan] at he
    dsimp only at he
    have hsign := length_scanSign ['-', '+'] rest
    have hdigits := length_takeDigits (scanSign ['-', '+'] rest).2
    split
    · exact Nat.le_refl _
    · next digits rest' _ htake =>
      rw [htake] at hdigits
      dsimp only at hdigits ⊢
      omega

end PyStr

namespace PyValue

open PyStr

variable {R : Type} (readFloat : List Char → PyFloat R)

theorem shrinks_matchNumber (s : PyStr) : Shrinks s.length (matchNumber readFloat s) := by
  have hsign := length_scanSign ['-'] s
  unfold matchNumber
  dsimp only
  split
  · simp [Shrinks]
  · next digits rest hinteger =>
    have hlength := length_scanInteger hinteger
    have hfraction := length_scanFraction_le rest
    have hexponent := length_scanExponent_le (scanFraction rest).2
    split
    · split
      · simp [Shrinks]
      · simp only [Shrinks]
        omega
    · simp only [Shrinks]
      omega

theorem length_scanConstant {s rest : PyStr} {value : PyValue R}
    (h : scanConstant s = some (value, rest)) : rest.length < s.length := by
  rw [scanConstant, List.findSome?_eq_some_iff] at h
  obtain ⟨_, ⟨name, value'⟩, _, hnames, hword, -⟩ := h
  have hmem : (name, value') ∈ (namedConstants : List (List Char × PyValue R)) := by
    rw [hnames]
    exact List.mem_append_right _ (List.mem_cons_self ..)
  have hpos : 0 < name.length := by
    have hall : ∀ c ∈ (namedConstants : List (List Char × PyValue R)), 0 < c.1.length := by
      simp [namedConstants]
    exact hall _ hmem
  rw [Option.map_eq_some_iff] at hword
  obtain ⟨rest', hafter, heq⟩ := hword
  obtain ⟨-, rfl⟩ := Prod.mk.inj heq
  have hlength := length_afterWord hafter
  omega

/-- With this fuel, which is two calls for each character, scans come to an end and leave less
text. -/
structure EnoughFuel (fuel : Nat) : Prop where
  once : ∀ depth s, 2 * s.length < fuel → Shrinks s.length (scanOnce readFloat fuel depth s)
  array : ∀ depth items s, 2 * s.length + 1 < fuel →
    Shrinks s.length (parseArray readFloat fuel depth items s)
  object : ∀ depth members s, 2 * s.length + 1 < fuel →
    Shrinks s.length (parseObject readFloat fuel depth members s)

section EnoughFuel

variable {readFloat} {fuel : Nat} (h : EnoughFuel readFloat fuel)
include h

theorem EnoughFuel.scanOnce_succ (depth : Nat) (s : PyStr) (hfuel : 2 * s.length < fuel + 1) :
    Shrinks s.length (scanOnce readFloat (fuel + 1) depth s) := by
  unfold scanOnce
  split
  · next rest hquote =>
    have hlength := length_after hquote
    refine ((shrinks_scanString s.length (Nat.lt_succ_self _)).mono (by omega)).bind ?_
    intro chars rest' hrest'
    exact hrest'
  · split
    · next rest hbrace =>
      have hlength := length_after hbrace
      have hskip := length_skip_le rest
      split
      · simp [Shrinks]
      · split
        · next rest' hclose =>
          have hlength' := length_after hclose
          simp only [Shrinks]
          omega
        · exact (h.object _ _ _ (by omega)).mono (by omega)
    · split
      · next rest hbracket =>
        have hlength := length_after hbracket
        have hskip := length_skip_le rest
        split
        · simp [Shrinks]
        · split
          · next rest' hclose =>
            have hlength' := length_after hclose
            simp only [Shrinks]
            omega
          · exact (h.array _ _ _ (by omega)).mono (by omega)
      · split
        · next result hconstant => exact length_scanConstant hconstant
        · exact shrinks_matchNumber readFloat s

theorem EnoughFuel.parseArray_succ (depth : Nat) (items : List (PyValue R)) (s : PyStr)
    (hfuel : 2 * s.length + 1 < fuel + 1) :
    Shrinks s.length (parseArray readFloat (fuel + 1) depth items s) := by
  unfold parseArray
  refine (h.once depth s (by omega)).bind ?_
  intro item rest hrest
  have hskip := length_skip_le rest
  dsimp only
  split
  · next rest' hclose =>
    have hlength := length_after hclose
    simp only [Shrinks]
    omega
  · split
    · next rest' hcomma =>
      have hlength := length_after hcomma
      have hskip' := length_skip_le rest'
      exact (h.array _ _ _ (by omega)).mono (by omega)
    · simp [Shrinks]

theorem EnoughFuel.parseObject_succ (depth : Nat) (members : List (PyStr × PyValue R)) (s : PyStr)
    (hfuel : 2 * s.length + 1 < fuel + 1) :
    Shrinks s.length (parseObject readFloat (fuel + 1) depth members s) := by
  unfold parseObject
  split
  · simp [Shrinks]
  · next rest hquote =>
    have hlength := length_after hquote
    refine ((shrinks_scanString s.length (Nat.lt_succ_self _)).mono (by omega)).bind ?_
    intro name rest₁ hrest₁
    have hskip₁ := length_skip_le rest₁
    dsimp only
    split
    · simp [Shrinks]
    · next rest₂ hcolon =>
      have hlength₂ := length_after hcolon
      have hskip₂ := length_skip_le rest₂
      refine ((h.once depth (skip rest₂) (by omega)).mono (by omega)).bind ?_
      intro value rest₃ hrest₃
      have hskip₃ := length_skip_le rest₃
      dsimp only
      split
      · next rest₄ hclose =>
        have hlength₄ := length_after hclose
        simp only [Shrinks]
        omega
      · split
        · next rest₄ hcomma =>
          have hlength₄ := length_after hcomma
          have hskip₄ := length_skip_le rest₄
          exact (h.object _ _ _ (by omega)).mono (by omega)
        · simp [Shrinks]

end EnoughFuel

theorem enoughFuel (fuel : Nat) : EnoughFuel readFloat fuel := by
  induction fuel with
  | zero => exact ⟨by simp, by simp, by simp⟩
  | succ fuel ih => exact ⟨ih.scanOnce_succ, ih.parseArray_succ, ih.parseObject_succ⟩

/-- `json.loads` has fuel for every document. -/
theorem loads_ne_outOfFuel (depth : Nat) (bytes : List UInt8) :
    loads readFloat depth bytes ≠ .error .outOfFuel := by
  unfold loads
  split
  · simp
  · next s hs =>
    have hskip := length_skip_le s
    have hscan := (enoughFuel readFloat (2 * s.length + 1)).once depth (skip s) (by omega)
    unfold decode
    cases honce : scanOnce readFloat (2 * s.length + 1) depth (skip s) with
    | error e =>
      rw [honce] at hscan
      intro h
      exact hscan (Except.error.inj h)
    | ok r =>
      obtain ⟨value, rest⟩ := r
      simp only [bind, Except.bind]
      split <;> simp

/-! ### Depth -/

/-- A scan that may go less deep agrees with one that may go deeper, unless it stops for that. -/
def Shallower {α : Type} (x y : Except LoadsError α) : Prop :=
  x = .error .recursionError ∨ x = y

theorem Shallower.bind {α β : Type} {x y : Except LoadsError α} {f g : α → Except LoadsError β}
    (hx : Shallower x y) (hf : ∀ a, Shallower (f a) (g a)) : Shallower (x >>= f) (y >>= g) := by
  rcases hx with hx | hx
  · exact .inl (by rw [hx]; rfl)
  · subst hx
    cases x with
    | error e => exact .inr rfl
    | ok a => exact hf a

/-- Scans of one text agree, unless the one that may go less deep stops for that. -/
structure DepthAgrees (fuel : Nat) : Prop where
  once : ∀ depth depth' s, depth ≤ depth' →
    Shallower (scanOnce readFloat fuel depth s) (scanOnce readFloat fuel depth' s)
  array : ∀ depth depth' items s, depth ≤ depth' →
    Shallower (parseArray readFloat fuel depth items s) (parseArray readFloat fuel depth' items s)
  object : ∀ depth depth' members s, depth ≤ depth' →
    Shallower (parseObject readFloat fuel depth members s)
      (parseObject readFloat fuel depth' members s)

section DepthAgrees

variable {readFloat} {fuel : Nat} (h : DepthAgrees readFloat fuel)
include h

theorem DepthAgrees.scanOnce_succ (depth depth' : Nat) (s : PyStr) (hdepth : depth ≤ depth') :
    Shallower (scanOnce readFloat (fuel + 1) depth s) (scanOnce readFloat (fuel + 1) depth' s) := by
  unfold scanOnce
  split
  · exact .inr rfl
  · split
    · cases depth with
      | zero => exact .inl rfl
      | succ depth =>
        cases depth' with
        | zero => omega
        | succ depth' =>
          dsimp only
          split
          · exact .inr rfl
          · exact h.object _ _ _ _ (Nat.le_of_succ_le_succ hdepth)
    · split
      · cases depth with
        | zero => exact .inl rfl
        | succ depth =>
          cases depth' with
          | zero => omega
          | succ depth' =>
            dsimp only
            split
            · exact .inr rfl
            · exact h.array _ _ _ _ (Nat.le_of_succ_le_succ hdepth)
      · exact .inr rfl

theorem DepthAgrees.parseArray_succ (depth depth' : Nat) (items : List (PyValue R)) (s : PyStr)
    (hdepth : depth ≤ depth') : Shallower (parseArray readFloat (fuel + 1) depth items s)
      (parseArray readFloat (fuel + 1) depth' items s) := by
  unfold parseArray
  refine (h.once depth depth' s hdepth).bind ?_
  rintro ⟨item, rest⟩
  dsimp only
  split
  · exact .inr rfl
  · split
    · exact h.array _ _ _ _ hdepth
    · exact .inr rfl

theorem DepthAgrees.parseObject_succ (depth depth' : Nat) (members : List (PyStr × PyValue R))
    (s : PyStr) (hdepth : depth ≤ depth') :
    Shallower (parseObject readFloat (fuel + 1) depth members s)
      (parseObject readFloat (fuel + 1) depth' members s) := by
  unfold parseObject
  split
  · exact .inr rfl
  · refine Shallower.bind (.inr rfl) ?_
    rintro ⟨name, rest⟩
    dsimp only
    split
    · exact .inr rfl
    · refine (h.once depth depth' _ hdepth).bind ?_
      rintro ⟨value, rest'⟩
      dsimp only
      split
      · exact .inr rfl
      · split
        · exact h.object _ _ _ _ hdepth
        · exact .inr rfl

end DepthAgrees

theorem depthAgrees (fuel : Nat) : DepthAgrees readFloat fuel := by
  induction fuel with
  | zero =>
    refine ⟨?_, ?_, ?_⟩
    · intro depth depth' s _
      exact .inr (by simp only [scanOnce])
    · intro depth depth' items s _
      exact .inr (by simp only [parseArray])
    · intro depth depth' members s _
      exact .inr (by simp only [parseObject])
  | succ fuel ih => exact ⟨ih.scanOnce_succ, ih.parseArray_succ, ih.parseObject_succ⟩

/-- A document that does not nest too deep is parsed in the same way whatever the bound is. -/
theorem shallower_loads {depth depth' : Nat} (h : depth ≤ depth') (bytes : List UInt8) :
    Shallower (loads readFloat depth bytes) (loads readFloat depth' bytes) := by
  unfold loads
  split
  · exact .inr rfl
  · unfold decode
    refine Shallower.bind ((depthAgrees readFloat _).once depth depth' _ h) ?_
    intro r
    exact .inr rfl

/-- Two bounds that a document stays below do not tell it apart. -/
theorem loads_eq_of_ne {depth depth' : Nat} {bytes : List UInt8}
    (h : loads readFloat depth bytes ≠ .error .recursionError)
    (h' : loads readFloat depth' bytes ≠ .error .recursionError) :
    loads readFloat depth bytes = loads readFloat depth' bytes := by
  rcases Nat.le_total depth depth' with hle | hle
  · exact (shallower_loads readFloat hle bytes).resolve_left h
  · exact ((shallower_loads readFloat hle bytes).resolve_left h').symm

end PyValue

end PotholeServer
