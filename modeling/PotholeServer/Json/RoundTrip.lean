import PotholeServer.Json.Codec

/-!
# What is printed is read back

`json.loads` reads what `json.dumps` prints. Only two things can change: a leading surrogate and a
trailing one behind it become one character, and of two members whose names become equal the last
one counts. The lemmas name the text that may follow, since a number goes on as long as it can.
-/

namespace PotholeServer

namespace PyStr

/-! ### Strings -/

/-- The string with every leading surrogate joined to a trailing one behind it. -/
def joined : PyStr → PyStr
  | [] => []
  | [c] => [c]
  | c :: d :: rest =>
    if isHighSurrogate c.code ∧ isLowSurrogate d.code then
      .ofCode (joinSurrogates c.code d.code) :: joined rest
    else c :: joined (d :: rest)

@[simp] theorem ofChars_nil : ofChars [] = [] := rfl

@[simp] theorem ofChars_cons (c : Char) (cs : List Char) :
    ofChars (c :: cs) = .char c :: ofChars cs := rfl

@[simp] theorem ofChars_append (cs ds : List Char) :
    ofChars (cs ++ ds) = ofChars cs ++ ofChars ds :=
  List.map_append

@[simp] theorem after_cons (c : Char) (s : PyStr) : after c (.char c :: s) = some s := if_pos rfl

/-- The text does not go on with the given character. -/
theorem after_cons_of_ne {c d : Char} (h : d ≠ c) (s : PyStr) : after c (.char d :: s) = none :=
  if_neg h

theorem skip_cons_of_ne {c : PyChar} (h : isJsonSpace c = false) (s : PyStr) :
    skip (c :: s) = c :: s := by
  rw [skip, List.dropWhile_cons_of_neg (by simp [h])]

/-- A character is the one with its code. -/
theorem ofCode_code (c : PyChar) : PyChar.ofCode c.code = c := by
  cases c with
  | char c =>
    have hvalid := c.valid
    have hrange : ¬(0xD800 ≤ c.toNat ∧ c.toNat < 0xE000) := by
      rcases hvalid with h | h
      · exact fun h' ↦ by
          have : c.toNat < 0xD800 := h
          omega
      · exact fun h' ↦ by
          have : 0xDFFF < c.toNat := h.1
          omega
    rw [PyChar.code, PyChar.ofCode, if_neg hrange, Char.ofNat_toNat]
  | surrogate n =>
    have hrange : 0xD800 ≤ 0xD800 + n.val ∧ 0xD800 + n.val < 0xE000 := by omega
    rw [PyChar.code, PyChar.ofCode, if_pos hrange, Nat.add_sub_cancel_left]
    simp

/-- No code point lies beyond Unicode. -/
theorem code_lt (c : PyChar) : c.code < 0x110000 := by
  cases c with
  | char c =>
    rcases c.valid with h | h
    · have : c.toNat < 0xD800 := h
      rw [PyChar.code]
      omega
    · exact h.2
  | surrogate n =>
    rw [PyChar.code]
    omega

/-! ### Escapes -/

theorem hexDigit?_digitChar {d : Nat} (h : d < 16) : hexDigit? (.char d.digitChar) = some d := by
  have hall : ∀ d < 16, hexDigit? (.char (Nat.digitChar d)) = some d := by decide
  exact hall d h

theorem scanHex4_hex4 {n : Nat} (h : n < 0x10000) (t : PyStr) :
    scanHex4 (ofChars (hex4 n) ++ t) = some (n, t) := by
  have hdigit : ∀ m : Nat, hexDigit? (.char (Nat.digitChar (m % 16))) = some (m % 16) :=
    fun m ↦ hexDigit?_digitChar (Nat.mod_lt m (by decide))
  simp only [hex4, List.map_cons, List.map_nil, ofChars_cons, ofChars_nil, List.cons_append,
    List.nil_append, scanHex4, hdigit, Option.bind_eq_bind, Option.bind_some, Option.some.injEq,
    Prod.mk.injEq, and_true]
  omega

/-- The text does not go on with an escape of a trailing surrogate. -/
def NoTrailing (t : PyStr) : Prop :=
  ∀ r, afterWord ['\\', 'u'] t = some r →
    ∃ low r', scanHex4 r = some (low, r') ∧ isLowSurrogate low = false

/-- A code unit that does not pair up with what follows. -/
theorem scanUnicodeEscape_hex4 {n : Nat} (hn : n < 0x10000) {t : PyStr} (ht : t ≠ [])
    (halone : isHighSurrogate n = true → NoTrailing t) :
    scanUnicodeEscape (ofChars (hex4 n) ++ t) = .ok (.ofCode n, t) := by
  have hlength : 4 < (ofChars (hex4 n) ++ t).length := by
    have hpos := List.length_pos_of_ne_nil ht
    simp only [hex4, List.map_cons, List.map_nil, ofChars_cons, ofChars_nil, List.cons_append,
      List.nil_append, List.length_cons]
    omega
  rw [scanUnicodeEscape, if_pos hlength, scanHex4_hex4 hn]
  dsimp only
  split
  · rfl
  · next rest' hrest' =>
    split at hrest'
    · next hhigh =>
      obtain ⟨low, r', hscan, hlow⟩ := halone hhigh.1 rest' hrest'
      rw [hscan]
      dsimp only
      rw [if_neg (by simp [hlow])]
    · cases hrest'

/-- A leading surrogate and a trailing one. -/
theorem scanUnicodeEscape_pair {high low : Nat} (hhigh : isHighSurrogate high = true)
    (hlow : isLowSurrogate low = true) {t : PyStr} (ht : t ≠ []) :
    scanUnicodeEscape (ofChars (hex4 high ++ '\\' :: 'u' :: hex4 low) ++ t) =
      .ok (.ofCode (joinSurrogates high low), t) := by
  have hhigh' : high < 0x10000 := by
    have h := hhigh
    simp only [isHighSurrogate, decide_eq_true_eq] at h
    omega
  have hlow' : low < 0x10000 := by
    have h := hlow
    simp only [isLowSurrogate, decide_eq_true_eq] at h
    omega
  have hpos := List.length_pos_of_ne_nil ht
  have hfour : ∀ n : Nat, (ofChars (hex4 n)).length = 4 := fun n ↦ rfl
  have hrest : 6 < (ofChars ('\\' :: 'u' :: hex4 low) ++ t).length := by
    rw [List.length_append, ofChars_cons, ofChars_cons, List.length_cons, List.length_cons, hfour]
    omega
  have hall : 4 < (ofChars (hex4 high) ++ (ofChars ('\\' :: 'u' :: hex4 low) ++ t)).length := by
    rw [List.length_append, hfour]
    omega
  rw [ofChars_append, List.append_assoc, scanUnicodeEscape, if_pos hall, scanHex4_hex4 hhigh']
  dsimp only
  rw [if_pos ⟨hhigh, hrest⟩]
  simp only [ofChars_cons, List.cons_append, afterWord, after_cons, Option.bind_some]
  rw [scanHex4_hex4 hlow']
  dsimp only
  rw [if_pos hlow]

/-- The surrogates of a character beyond the first plane stand for it. -/
theorem joinSurrogates_split {n : Nat} (h : 0x10000 ≤ n) :
    joinSurrogates (0xD800 + (n - 0x10000) / 0x400) (0xDC00 + (n - 0x10000) % 0x400) = n := by
  obtain ⟨m, rfl⟩ := Nat.exists_eq_add_of_le h
  have hsplit := Nat.div_add_mod m 0x400
  unfold joinSurrogates
  rw [Nat.add_sub_cancel_left]
  omega

/-- The escapes of a character, for each way of printing it. -/
inductive Escapes : PyChar → List Char → Prop where
  | plain {c : Char} (hquote : c ≠ '"') (hslash : c ≠ '\\') (hcode : 0x20 ≤ c.toNat) :
    Escapes (.char c) [c]
  | simple {c d : Char} (hu : d ≠ 'u') (h : simpleEscape (.char d) = some c) :
    Escapes (.char c) ['\\', d]
  | unit {c : PyChar} (h : c.code < 0x10000) : Escapes c ('\\' :: 'u' :: hex4 c.code)
  | pair {c : PyChar} {high low : Nat} (hhigh : isHighSurrogate high = true)
    (hlow : isLowSurrogate low = true) (h : joinSurrogates high low = c.code) :
    Escapes c ('\\' :: 'u' :: hex4 high ++ '\\' :: 'u' :: hex4 low)

theorem escapes_escapeAscii (c : PyChar) : Escapes c (escapeAscii c) := by
  have hlt := code_lt c
  unfold escapeAscii
  split
  · next h => exact h ▸ .simple (by decide) (by decide)
  · next hquote =>
    split
    · next h => exact h ▸ .simple (by decide) (by decide)
    · next hslash =>
      split
      · next hrange =>
        cases c with
        | surrogate n =>
          rw [PyChar.code] at hrange
          omega
        | char c =>
          rw [PyChar.code, Char.ofNat_toNat]
          exact .plain (fun h ↦ hquote (by rw [h])) (fun h ↦ hslash (by rw [h])) hrange.1
      · split
        · next h => exact h ▸ .simple (by decide) (by decide)
        · split
          · next h => exact h ▸ .simple (by decide) (by decide)
          · split
            · next h => exact h ▸ .simple (by decide) (by decide)
            · split
              · next h =>
                rw [← ofCode_code c, h]
                exact .simple (by decide) (by decide)
              · split
                · next h =>
                  rw [← ofCode_code c, h]
                  exact .simple (by decide) (by decide)
                · split
                  · next h => exact .unit h
                  · next h =>
                    refine .pair ?_ ?_ ?_
                    · simp only [isHighSurrogate, decide_eq_true_eq]
                      omega
                    · simp only [isLowSurrogate, decide_eq_true_eq]
                      omega
                    · exact joinSurrogates_split (Nat.le_of_not_lt h)

section ScanString

variable {start fuel : Nat} {c : PyChar} {text : List Char} {t ds rest : PyStr}

theorem noTrailing_quote (t : PyStr) : NoTrailing (.char '"' :: t) := by
  intro r h
  cases h

/-- What is printed for a character pairs up with nothing, unless it is a trailing surrogate. -/
theorem Escapes.noTrailing (h : Escapes c text) (hlow : isLowSurrogate c.code = false) (t : PyStr) :
    NoTrailing (ofChars text ++ t) := by
  intro r hr
  cases h with
  | plain _ hslash _ =>
    rw [ofChars_cons, List.cons_append, afterWord, after_cons_of_ne hslash] at hr
    cases hr
  | simple hu _ =>
    simp only [ofChars_cons, List.cons_append, afterWord, after_cons, Option.bind_some,
      after_cons_of_ne hu] at hr
    cases hr
  | unit hcode =>
    simp only [ofChars_cons, List.cons_append, afterWord, after_cons, Option.bind_some,
      Option.some.injEq] at hr
    subst hr
    exact ⟨_, t, scanHex4_hex4 hcode t, hlow⟩
  | @pair _ high _ hhigh _ _ =>
    simp only [ofChars_cons, ofChars_append, List.cons_append, List.append_assoc, afterWord,
      after_cons, Option.bind_some, Option.some.injEq] at hr
    subst hr
    simp only [isHighSurrogate, decide_eq_true_eq] at hhigh
    refine ⟨high, _, scanHex4_hex4 (by omega) _, ?_⟩
    simp only [isLowSurrogate, decide_eq_false_iff_not]
    omega

/-- Reading one escape. -/
theorem scanString_slash {d : PyChar} {s : PyStr} (hescape : scanEscape start s = .ok (d, t))
    (hscan : scanString start fuel t = .ok (ds, rest)) :
    scanString start (fuel + 1) (.char '\\' :: s) = .ok (d :: ds, rest) := by
  rw [scanString, if_neg (by decide), if_pos rfl, hescape]
  simp only [bind, Except.bind, hscan]

/-- What is printed for a character is read as the character. -/
theorem scanString_escape (h : Escapes c text) (ht : t ≠ [])
    (halone : isHighSurrogate c.code = true → NoTrailing t)
    (hscan : scanString start fuel t = .ok (ds, rest)) :
    scanString start (fuel + 1) (ofChars text ++ t) = .ok (c :: ds, rest) := by
  cases h with
  | @plain c hquote hslash hcode =>
    have hquote' : PyChar.char c ≠ .char '"' := fun h ↦ hquote (PyChar.char.inj h)
    have hslash' : PyChar.char c ≠ .char '\\' := fun h ↦ hslash (PyChar.char.inj h)
    rw [ofChars_cons, List.cons_append, scanString, if_neg hquote', if_neg hslash',
      if_neg (by rw [PyChar.code]; omega)]
    change (scanString start fuel t >>= _) = _
    rw [hscan]
    rfl
  | @simple c d hu hsimple =>
    refine scanString_slash ?_ hscan
    change scanEscape start (.char d :: t) = _
    rw [scanEscape, if_neg (fun h ↦ hu (PyChar.char.inj h)), hsimple]
  | unit hcode =>
    refine scanString_slash ?_ hscan
    change scanUnicodeEscape (ofChars (hex4 c.code) ++ t) = _
    rw [scanUnicodeEscape_hex4 hcode ht halone, ofCode_code]
  | @pair _ high low hhigh hlow hjoin =>
    refine scanString_slash ?_ hscan
    change scanUnicodeEscape (ofChars (hex4 high ++ '\\' :: 'u' :: hex4 low) ++ t) = _
    rw [scanUnicodeEscape_pair hhigh hlow ht, hjoin, ofCode_code]

/-- A surrogate is printed as its code. -/
theorem escapeAscii_surrogate (n : Fin 0x800) :
    escapeAscii (.surrogate n) = '\\' :: 'u' :: hex4 (PyChar.surrogate n).code := by
  have hcode : (PyChar.surrogate n).code = 0xD800 + n.val := rfl
  unfold escapeAscii
  rw [if_neg (by simp), if_neg (by simp), if_neg (by omega), if_neg (by simp), if_neg (by simp),
    if_neg (by simp), if_neg (by omega), if_neg (by omega), if_pos (by omega)]

/-- A character is no surrogate. -/
theorem surrogate_of_code {c : PyChar} (h : 0xD800 ≤ c.code ∧ c.code < 0xE000) :
    ∃ n, c = .surrogate n := by
  cases c with
  | surrogate n => exact ⟨n, rfl⟩
  | char c =>
    rw [PyChar.code] at h
    rcases c.valid with hlow | hhigh
    · have : c.toNat < 0xD800 := hlow
      omega
    · have : 0xDFFF < c.toNat := hhigh.1
      omega

/-- A leading and a trailing surrogate are read as one character. -/
theorem scanString_surrogates {d : PyChar} (hc : isHighSurrogate c.code = true)
    (hd : isLowSurrogate d.code = true) (ht : t ≠ [])
    (hscan : scanString start fuel t = .ok (ds, rest)) :
    scanString start (fuel + 1) (ofChars (escapeAscii c ++ escapeAscii d) ++ t) =
      .ok (.ofCode (joinSurrogates c.code d.code) :: ds, rest) := by
  obtain ⟨n, rfl⟩ : ∃ n, c = .surrogate n := by
    simp only [isHighSurrogate, decide_eq_true_eq] at hc
    exact surrogate_of_code (by omega)
  obtain ⟨m, rfl⟩ : ∃ m, d = .surrogate m := by
    simp only [isLowSurrogate, decide_eq_true_eq] at hd
    exact surrogate_of_code (by omega)
  rw [escapeAscii_surrogate, escapeAscii_surrogate]
  exact scanString_slash (scanUnicodeEscape_pair hc hd ht) hscan

/-- Every character is printed as something. -/
theorem length_le_flatMap_escapeAscii (s : PyStr) :
    s.length ≤ (s.flatMap escapeAscii).length := by
  have hpos : ∀ c, 0 < (escapeAscii c).length := by
    intro c
    have h := escapes_escapeAscii c
    generalize escapeAscii c = text at h
    cases h <;> exact Nat.succ_pos _
  induction s with
  | nil => exact Nat.le_refl _
  | cons c s ih =>
    rw [List.flatMap_cons, List.length_append, List.length_cons]
    have := hpos c
    omega

/-- A printed string is read as the joined string. -/
theorem scanString_dumps (start : Nat) (s rest : PyStr) {fuel : Nat} (h : s.length < fuel) :
    scanString start fuel (ofChars (s.flatMap escapeAscii) ++ .char '"' :: rest) =
      .ok (joined s, rest) := by
  have hquote : ∀ (s : PyStr), ofChars (s.flatMap escapeAscii) ++ .char '"' :: rest ≠ [] := by
    intro s
    simp
  have hone : ∀ fuel, scanString start (fuel + 1) (.char '"' :: rest) = .ok ([], rest) := by
    intro fuel
    rw [scanString, if_pos rfl]
  induction s using joined.induct generalizing fuel with
  | case1 =>
    obtain ⟨fuel, rfl⟩ := Nat.exists_eq_add_of_lt h
    exact hone _
  | case2 c =>
    obtain ⟨fuel, rfl⟩ := Nat.exists_eq_add_of_lt h
    rw [List.flatMap_singleton]
    refine scanString_escape (escapes_escapeAscii c) (List.cons_ne_nil _ _)
      (fun _ ↦ noTrailing_quote rest) ?_
    rw [List.length_singleton, Nat.add_comm 1 fuel]
    exact hone _
  | case3 c d s hpair ih =>
    obtain ⟨fuel, rfl⟩ := Nat.exists_eq_add_of_lt h
    rw [joined, if_pos hpair, List.flatMap_cons, List.flatMap_cons, ← List.append_assoc,
      ofChars_append, List.append_assoc]
    refine scanString_surrogates hpair.1 hpair.2 (hquote s) (ih ?_)
    simp only [List.length_cons]
    omega
  | case4 c d s hpair ih =>
    obtain ⟨fuel, rfl⟩ := Nat.exists_eq_add_of_lt h
    rw [joined, if_neg hpair, List.flatMap_cons, ofChars_append, List.append_assoc]
    refine scanString_escape (escapes_escapeAscii c) (hquote _) ?_ (ih ?_)
    · intro hhigh
      have hlow : isLowSurrogate d.code = false :=
        Bool.eq_false_iff.mpr (fun hlow ↦ hpair ⟨hhigh, hlow⟩)
      rw [List.flatMap_cons, ofChars_append, List.append_assoc]
      exact (escapes_escapeAscii d).noTrailing hlow _
    · simp only [List.length_cons]
      omega

end ScanString

/-! ### Numbers -/

/-- A number ends before this text. -/
def NumberEnds (t : PyStr) : Prop :=
  ∀ c rest, t = .char c :: rest → c.isDigit = false ∧ c ≠ '.' ∧ c ≠ 'e' ∧ c ≠ 'E'

/-- Digits, and at least one. -/
structure AreDigits (cs : List Char) : Prop where
  nonempty : cs ≠ []
  digit : ∀ c ∈ cs, c.isDigit = true

/-- The integer part of a number. -/
def IsInteger (cs : List Char) : Prop := cs = ['0'] ∨ AreDigits cs ∧ cs.head? ≠ some '0'

/-- A fraction, or nothing. -/
def IsFraction (cs : List Char) : Prop := cs = [] ∨ ∃ ds, AreDigits ds ∧ cs = '.' :: ds

/-- An exponent, or nothing. -/
def IsExponent (cs : List Char) : Prop :=
  cs = [] ∨ ∃ e sign ds, e ∈ ['e', 'E'] ∧ (sign = [] ∨ sign = ['-'] ∨ sign = ['+']) ∧
    AreDigits ds ∧ cs = e :: (sign ++ ds)

/-- The text of a number that is no integer. -/
def IsFloatText (text : List Char) : Prop :=
  ∃ sign digits fraction exponent, (sign = [] ∨ sign = ['-']) ∧ IsInteger digits ∧
    IsFraction fraction ∧ IsExponent exponent ∧ ¬(fraction = [] ∧ exponent = []) ∧
    text = sign ++ digits ++ fraction ++ exponent

section Scan

variable {cs : List Char} {t : PyStr}

theorem NumberEnds.takeDigits_eq (h : NumberEnds t) : takeDigits t = ([], t) := by
  cases t with
  | nil => rfl
  | cons c rest =>
    cases c with
    | surrogate n => rfl
    | char c => rw [takeDigits, if_neg (by simp [(h c rest rfl).1])]

theorem NumberEnds.scanFraction_eq (h : NumberEnds t) : scanFraction t = ([], t) := by
  have hafter : after '.' t = none := by
    cases t with
    | nil => rfl
    | cons c rest =>
      cases c with
      | surrogate n => rfl
      | char c => exact after_cons_of_ne (h c rest rfl).2.1 rest
  rw [scanFraction, hafter]

theorem NumberEnds.scanExponent_eq (h : NumberEnds t) : scanExponent t = ([], t) := by
  have hsign : scanSign ['e', 'E'] t = ([], t) := by
    cases t with
    | nil => rfl
    | cons c rest =>
      cases c with
      | surrogate n => rfl
      | char c =>
        obtain ⟨_, _, he, hE⟩ := h c rest rfl
        rw [scanSign, if_neg (by simp [he, hE])]
  rw [scanExponent, hsign]

/-- Digits are taken as far as they go. -/
theorem takeDigits_append (hcs : ∀ c ∈ cs, c.isDigit = true) (ht : takeDigits t = ([], t)) :
    takeDigits (ofChars cs ++ t) = (cs, t) := by
  induction cs with
  | nil => exact ht
  | cons c cs ih =>
    have hrest := ih (fun d hd ↦ hcs d (List.mem_cons_of_mem _ hd))
    rw [ofChars_cons, List.cons_append, takeDigits, if_pos (hcs c (List.mem_cons_self ..)), hrest]

theorem scanInteger_append (hcs : IsInteger cs) (ht : takeDigits t = ([], t)) :
    scanInteger (ofChars cs ++ t) = some (cs, t) := by
  rcases hcs with rfl | ⟨hdigits, hhead⟩
  · rw [scanInteger, ofChars_cons, List.cons_append, after_cons]
    rfl
  · cases cs with
    | nil => exact absurd rfl hdigits.nonempty
    | cons c cs =>
      have hzero : c ≠ '0' := fun h ↦ hhead (congrArg some h)
      have htake := takeDigits_append hdigits.digit ht
      rw [ofChars_cons, List.cons_append] at htake ⊢
      rw [scanInteger, after_cons_of_ne hzero, htake]

theorem scanFraction_append {fraction : List Char} (h : IsFraction fraction)
    (ht : takeDigits t = ([], t)) (hnone : scanFraction t = ([], t)) :
    scanFraction (ofChars fraction ++ t) = (fraction, t) := by
  rcases h with rfl | ⟨ds, hds, rfl⟩
  · exact hnone
  · rw [scanFraction, ofChars_cons, List.cons_append, after_cons]
    dsimp only
    rw [takeDigits_append hds.digit ht]
    cases ds with
    | nil => exact absurd rfl hds.nonempty
    | cons d ds => rfl

theorem scanExponent_append {exponent : List Char} (h : IsExponent exponent)
    (ht : NumberEnds t) : scanExponent (ofChars exponent ++ t) = (exponent, t) := by
  rcases h with rfl | ⟨e, sign, ds, he, hsign, hds, rfl⟩
  · exact ht.scanExponent_eq
  · obtain ⟨d, ds', rfl⟩ := List.exists_cons_of_ne_nil hds.nonempty
    have hd := hds.digit d (List.mem_cons_self ..)
    have htake := takeDigits_append hds.digit ht.takeDigits_eq
    have hscan : scanSign ['-', '+'] (ofChars (sign ++ d :: ds') ++ t) =
        (sign, ofChars (d :: ds') ++ t) := by
      rcases hsign with rfl | rfl | rfl
      · have hminus : d ∉ ['-', '+'] := by
          rintro hmem
          rcases List.mem_pair.mp hmem with rfl | rfl <;> cases hd
        rw [List.nil_append, ofChars_cons, List.cons_append, scanSign, if_neg hminus]
      · rfl
      · rfl
    rw [scanExponent, ofChars_cons, List.cons_append, scanSign, if_pos he]
    dsimp only
    rw [hscan]
    dsimp only
    rw [htake]
    rfl

/-- What follows an integer part, whether it goes on or not. -/
theorem takeDigits_tail {fraction exponent : List Char} (hfraction : IsFraction fraction)
    (hexponent : IsExponent exponent) (ht : NumberEnds t) :
    takeDigits (ofChars exponent ++ t) = ([], ofChars exponent ++ t) ∧
      takeDigits (ofChars fraction ++ (ofChars exponent ++ t)) =
        ([], ofChars fraction ++ (ofChars exponent ++ t)) := by
  have hexp : takeDigits (ofChars exponent ++ t) = ([], ofChars exponent ++ t) := by
    rcases hexponent with rfl | ⟨e, sign, ds, he, _, _, rfl⟩
    · exact ht.takeDigits_eq
    · rcases List.mem_pair.mp he with rfl | rfl <;> rfl
  refine ⟨hexp, ?_⟩
  rcases hfraction with rfl | ⟨ds, _, rfl⟩
  · exact hexp
  · rfl

/-- An exponent is no fraction. -/
theorem scanFraction_exponent {exponent : List Char} (hexponent : IsExponent exponent)
    (ht : NumberEnds t) :
    scanFraction (ofChars exponent ++ t) = ([], ofChars exponent ++ t) := by
  rcases hexponent with rfl | ⟨e, sign, ds, he, _, _, rfl⟩
  · exact ht.scanFraction_eq
  · rcases List.mem_pair.mp he with rfl | rfl <;> rfl

/-- A sign of a number, or none. -/
theorem scanSign_append {sign digits : List Char} (hsign : sign = [] ∨ sign = ['-'])
    (hdigits : IsInteger digits) (t : PyStr) :
    scanSign ['-'] (ofChars (sign ++ digits) ++ t) = (sign, ofChars digits ++ t) := by
  rcases hsign with rfl | rfl
  · rcases hdigits with rfl | ⟨hdigits, _⟩
    · rfl
    · obtain ⟨d, ds, rfl⟩ := List.exists_cons_of_ne_nil hdigits.nonempty
      have hd := hdigits.digit d (List.mem_cons_self ..)
      have hminus : d ∉ ['-'] := by
        rintro hmem
        cases List.mem_singleton.mp hmem
        cases hd
      rw [List.nil_append, ofChars_cons, List.cons_append, scanSign, if_neg hminus]
  · rfl

end Scan

end PyStr

namespace PyValue

open PyStr

variable {R : Type}

mutual

/-- What `json.loads` makes of the text that `json.dumps` prints. -/
def reread : PyValue R → PyValue R
  | .null => .null
  | .bool b => .bool b
  | .int n => .int n
  | .float x => .float x
  | .str s => .str s.joined
  | .list items => .list (rereadItems items)
  | .dict members => .dict (dictOf (rereadMembers members))

/-- `reread` on the items of a list. -/
def rereadItems : List (PyValue R) → List (PyValue R)
  | [] => []
  | item :: items => reread item :: rereadItems items

/-- `reread` on the members of a dictionary. -/
def rereadMembers : List (PyStr × PyValue R) → List (PyStr × PyValue R)
  | [] => []
  | (name, value) :: members => (name.joined, reread value) :: rereadMembers members

end

/-- `float` reads the number back that `float.__repr__` has printed. -/
def Reprints (repr : R → List Char) (readFloat : List Char → PyFloat R) : PyFloat R → Prop
  | .finite x => IsFloatText (repr x) ∧ readFloat (repr x) = .finite x
  | .nan | .inf _ => True

/-- Python prints the numbers of the value, and it nests no deeper than this. -/
inductive Fits (repr : R → List Char) (readFloat : List Char → PyFloat R) :
    Nat → PyValue R → Prop where
  | null {depth : Nat} : Fits repr readFloat depth .null
  | bool {depth : Nat} (b : Bool) : Fits repr readFloat depth (.bool b)
  | int {depth : Nat} {n : Int} (h : (Nat.toDigits 10 n.natAbs).length ≤ intMaxStrDigits) :
    Fits repr readFloat depth (.int n)
  | float {depth : Nat} {x : PyFloat R} (h : Reprints repr readFloat x) :
    Fits repr readFloat depth (.float x)
  | str {depth : Nat} (s : PyStr) : Fits repr readFloat depth (.str s)
  | list {depth : Nat} {items : List (PyValue R)} (h : ∀ v ∈ items, Fits repr readFloat depth v) :
    Fits repr readFloat (depth + 1) (.list items)
  | dict {depth : Nat} {members : List (PyStr × PyValue R)}
    (h : ∀ m ∈ members, Fits repr readFloat depth m.2) :
    Fits repr readFloat (depth + 1) (.dict members)

/-! ### Numbers -/

section Numbers

variable {readFloat : List Char → PyFloat R} {sign digits : List Char} {t : PyStr}

theorem isInteger_toDigits (n : Nat) : IsInteger (Nat.toDigits 10 n) := by
  have hdigits : AreDigits (Nat.toDigits 10 n) :=
    ⟨Nat.toDigits_ne_nil, fun c hc ↦ Nat.isDigit_of_mem_toDigits (by decide) (by decide) hc⟩
  by_cases hn : n = 0
  · subst hn
    exact .inl (Nat.toDigits_zero 10)
  · refine .inr ⟨hdigits, ?_⟩
    clear hdigits
    induction n using Nat.strongRecOn with
    | _ n ih =>
      rw [Nat.toDigits_eq_if (by decide)]
      split
      · simp [hn]
      · next hge =>
        rw [List.head?_append_of_ne_nil _ Nat.toDigits_ne_nil]
        exact ih (n / 10) (by omega) (by omega)

theorem ofDigits_toDigits (n : Nat) : ofDigits (Nat.toDigits 10 n) = n := by
  have hsame : ofDigits (Nat.toDigits 10 n) = Nat.ofDigitChars 10 (Nat.toDigits 10 n) 0 := by
    simp only [ofDigits, Nat.ofDigitChars_eq_foldl, Nat.mul_comm]
  rw [hsame, Nat.ofDigitChars_ten_toDigits]

/-- A printed integer is its sign and its digits. -/
theorem toList_toString (n : Int) : ∃ sign, (sign = [] ∨ sign = ['-']) ∧
    (toString n).toList = sign ++ Nat.toDigits 10 n.natAbs ∧
    n = if sign = [] then (n.natAbs : Int) else -(n.natAbs : Int) := by
  cases n with
  | ofNat m => exact ⟨[], .inl rfl, Nat.toList_repr, rfl⟩
  | negSucc m =>
    refine ⟨['-'], .inr rfl, ?_, ?_⟩
    · change ("-" ++ (m + 1).repr).toList = _
      rw [String.toList_append, Nat.toList_repr]
      rfl
    · rw [if_neg (by simp)]
      rfl

/-- The first character of a number. -/
theorem exists_head (hsign : sign = [] ∨ sign = ['-']) (hdigits : IsInteger digits) :
    ∃ c cs, sign ++ digits = c :: cs ∧ (c.isDigit = true ∧ sign = [] ∨ c = '-' ∧
      ∃ d ds, cs = d :: ds ∧ d.isDigit = true) := by
  obtain ⟨d, ds, hd, hcons⟩ : ∃ d ds, d.isDigit = true ∧ digits = d :: ds := by
    rcases hdigits with rfl | ⟨hdigits, _⟩
    · exact ⟨'0', [], rfl, rfl⟩
    · obtain ⟨d, ds, rfl⟩ := List.exists_cons_of_ne_nil hdigits.nonempty
      exact ⟨d, ds, hdigits.digit d (List.mem_cons_self ..), rfl⟩
  rcases hsign with rfl | rfl
  · exact ⟨d, ds, hcons, .inl ⟨hd, rfl⟩⟩
  · exact ⟨'-', digits, rfl, .inr ⟨rfl, d, ds, hcons, hd⟩⟩

/-- A digit is none of the characters that other values begin with. -/
theorem ne_of_isDigit {c d : Char} (hc : c.isDigit = true) (hd : d.isDigit = false) : c ≠ d := by
  rintro rfl
  rw [hc] at hd
  cases hd

/-- A number is no constant. -/
theorem scanConstant_number (hsign : sign = [] ∨ sign = ['-']) (hdigits : IsInteger digits)
    (t : PyStr) : scanConstant (R := R) (ofChars (sign ++ digits) ++ t) = none := by
  obtain ⟨c, cs, hcons, hhead⟩ := exists_head hsign hdigits
  rw [hcons, ofChars_cons, List.cons_append]
  rcases hhead with ⟨hc, _⟩ | ⟨rfl, d, ds, rfl, hd⟩
  · have hne : ∀ d : Char, d.isDigit = false → after d (.char c :: (ofChars cs ++ t)) = none :=
      fun d hd ↦ after_cons_of_ne (ne_of_isDigit hc hd) _
    simp [scanConstant, namedConstants, afterWord, hne]
  · have hne : after 'I' (.char d :: (ofChars ds ++ t)) = none :=
      after_cons_of_ne (ne_of_isDigit hd rfl) _
    simp [scanConstant, namedConstants, afterWord, after_cons_of_ne, hne]

/-- A printed integer is read. -/
theorem matchNumber_int (readFloat : List Char → PyFloat R) {n : Int}
    (hn : (Nat.toDigits 10 n.natAbs).length ≤ intMaxStrDigits) (ht : NumberEnds t) :
    matchNumber readFloat (ofChars (toString n).toList ++ t) = .ok (.int n, t) := by
  obtain ⟨sign, hsign, htext, hvalue⟩ := toList_toString n
  have hinteger := isInteger_toDigits n.natAbs
  rw [htext, matchNumber, scanSign_append hsign hinteger]
  dsimp only
  rw [scanInteger_append hinteger ht.takeDigits_eq]
  dsimp only
  rw [ht.scanFraction_eq]
  dsimp only
  rw [ht.scanExponent_eq]
  dsimp only
  rw [if_pos ⟨rfl, rfl⟩, if_neg (by omega), ofDigits_toDigits, ← hvalue]

/-- The text of a number that is no integer is read as a float. -/
theorem matchNumber_float {text : List Char} (htext : IsFloatText text) (ht : NumberEnds t) :
    matchNumber readFloat (ofChars text ++ t) = .ok (.float (readFloat text), t) := by
  obtain ⟨sign, digits, fraction, exponent, hsign, hdigits, hfraction, hexponent, hfloat, rfl⟩ :=
    htext
  obtain ⟨hexp, hfrac⟩ := takeDigits_tail hfraction hexponent ht
  have hsplit : ofChars (sign ++ digits ++ fraction ++ exponent) ++ t =
      ofChars (sign ++ digits) ++ (ofChars fraction ++ (ofChars exponent ++ t)) := by
    simp only [ofChars_append, List.append_assoc]
  rw [hsplit, matchNumber, scanSign_append hsign hdigits]
  dsimp only
  rw [scanInteger_append hdigits hfrac]
  dsimp only
  rw [scanFraction_append hfraction hexp (scanFraction_exponent hexponent ht)]
  dsimp only
  rw [scanExponent_append hexponent ht]
  dsimp only
  rw [if_neg hfloat]

end Numbers

/-! ### Values -/

section Values

variable {repr : R → List Char} {readFloat : List Char → PyFloat R} {depth : Nat}

theorem rereadItems_eq (items : List (PyValue R)) : rereadItems items = items.map reread := by
  induction items with
  | nil => rfl
  | cons item items ih => rw [rereadItems, ih, List.map_cons]

theorem rereadMembers_eq (members : List (PyStr × PyValue R)) :
    rereadMembers members = members.map (fun m ↦ (m.1.joined, reread m.2)) := by
  induction members with
  | nil => rfl
  | cons m members ih =>
    obtain ⟨name, value⟩ := m
    rw [rereadMembers, ih, List.map_cons]

/-- The first character of a value: no white space, and no bracket that closes. -/
def Begins (cs : List Char) : Prop :=
  ∃ c rest, cs = c :: rest ∧ isJsonSpace (.char c) = false ∧ c ≠ ']' ∧ c ≠ '}'

theorem Begins.skip_eq {cs : List Char} (h : Begins cs) (t : PyStr) :
    skip (ofChars cs ++ t) = ofChars cs ++ t := by
  obtain ⟨c, rest, rfl, hspace, _, _⟩ := h
  exact skip_cons_of_ne hspace _

theorem begins_number {sign digits rest : List Char} (hsign : sign = [] ∨ sign = ['-'])
    (hdigits : IsInteger digits) : Begins (sign ++ digits ++ rest) := by
  obtain ⟨c, cs, hcons, hhead⟩ := exists_head hsign hdigits
  rw [hcons, List.cons_append]
  refine ⟨c, cs ++ rest, rfl, ?_⟩
  rcases hhead with ⟨hc, _⟩ | ⟨rfl, _⟩
  · have hne : ∀ d : Char, d.isDigit = false → c ≠ d := fun d ↦ ne_of_isDigit hc
    simp [isJsonSpace, hne]
  · decide

theorem begins_of_isFloatText {text : List Char} (h : IsFloatText text) : Begins text := by
  obtain ⟨sign, digits, fraction, exponent, hsign, hdigits, -, -, -, rfl⟩ := h
  rw [List.append_assoc]
  exact begins_number hsign hdigits

theorem begins_dumps {v : PyValue R} (h : Fits repr readFloat depth v) :
    Begins (dumps repr v) := by
  cases h with
  | null =>
    rw [dumps]
    exact ⟨'n', ['u', 'l', 'l'], rfl, by decide⟩
  | bool b =>
    cases b with
    | true =>
      rw [dumps]
      exact ⟨'t', ['r', 'u', 'e'], rfl, by decide⟩
    | false =>
      rw [dumps]
      exact ⟨'f', ['a', 'l', 's', 'e'], rfl, by decide⟩
  | @int _ n _ =>
    obtain ⟨sign, hsign, htext, _⟩ := toList_toString n
    rw [dumps, htext, ← List.append_nil (sign ++ _)]
    exact begins_number hsign (isInteger_toDigits _)
  | @float _ x hx =>
    cases x with
    | nan =>
      rw [dumps]
      exact ⟨'N', ['a', 'N'], rfl, by decide⟩
    | inf negative =>
      cases negative with
      | true =>
        rw [dumps]
        exact ⟨'-', ['I', 'n', 'f', 'i', 'n', 'i', 't', 'y'], rfl, by decide⟩
      | false =>
        rw [dumps]
        exact ⟨'I', ['n', 'f', 'i', 'n', 'i', 't', 'y'], rfl, by decide⟩
    | finite x =>
      rw [dumps]
      exact begins_of_isFloatText hx.1
  | str s =>
    rw [dumps]
    exact ⟨'"', _, rfl, by decide⟩
  | list items =>
    rw [dumps]
    exact ⟨'[', _, rfl, by decide⟩
  | dict members =>
    rw [dumps]
    exact ⟨'{', _, rfl, by decide⟩

theorem Begins.append {cs : List Char} (h : Begins cs) (ds : List Char) : Begins (cs ++ ds) := by
  obtain ⟨c, rest, rfl, hc⟩ := h
  exact ⟨c, rest ++ ds, rfl, hc⟩

theorem begins_dumpsItems {v : PyValue R} (h : Begins (dumps repr v)) (vs : List (PyValue R)) :
    Begins (dumpsItems repr (v :: vs)) := by
  cases vs with
  | nil => exact h
  | cons w ws =>
    rw [dumpsItems]
    · exact h.append _
    · exact List.cons_ne_nil _ _

theorem begins_dumpsMembers (repr : R → List Char) (name : PyStr) (v : PyValue R)
    (members : List (PyStr × PyValue R)) : Begins (dumpsMembers repr ((name, v) :: members)) := by
  cases members with
  | nil =>
    rw [dumpsMembers, PyStr.dumps]
    exact ⟨'"', _, rfl, by decide⟩
  | cons m ms =>
    rw [dumpsMembers]
    · rw [PyStr.dumps]
      exact ⟨'"', _, rfl, by decide⟩
    · exact List.cons_ne_nil _ _

/-- Every scan with enough fuel reads the value back from its text. -/
structure ReadsBack (repr : R → List Char) (readFloat : List Char → PyFloat R) (depth : Nat)
    (v : PyValue R) : Prop where
  begins : Begins (dumps repr v)
  scan : ∀ fuel t, NumberEnds t → 2 * (ofChars (dumps repr v) ++ t).length < fuel →
    scanOnce readFloat fuel depth (ofChars (dumps repr v) ++ t) = .ok (reread v, t)

theorem numberEnds_cons {c : Char} (hdigit : c.isDigit = false) (hpoint : c ≠ '.') (he : c ≠ 'e')
    (hE : c ≠ 'E') (t : PyStr) : NumberEnds (.char c :: t) := by
  intro d rest h
  cases h
  exact ⟨hdigit, hpoint, he, hE⟩

theorem numberEnds_comma (t : PyStr) : NumberEnds (.char ',' :: t) :=
  numberEnds_cons rfl (by decide) (by decide) (by decide) t

theorem numberEnds_bracket (t : PyStr) : NumberEnds (.char ']' :: t) :=
  numberEnds_cons rfl (by decide) (by decide) (by decide) t

theorem numberEnds_brace (t : PyStr) : NumberEnds (.char '}' :: t) :=
  numberEnds_cons rfl (by decide) (by decide) (by decide) t

section Scalars

variable {fuel : Nat} {c : Char} (hquote : c ≠ '"') (hbrace : c ≠ '{') (hbracket : c ≠ '[')
  {t : PyStr}
include hquote hbrace hbracket

/-- What begins like no string, object or array is a constant or a number. -/
theorem scanOnce_of_constant {result : PyValue R × PyStr}
    (h : scanConstant (.char c :: t) = some result) :
    scanOnce readFloat (fuel + 1) depth (.char c :: t) = .ok result := by
  rw [scanOnce, after_cons_of_ne hquote, after_cons_of_ne hbrace, after_cons_of_ne hbracket, h]

theorem scanOnce_of_number (h : scanConstant (R := R) (.char c :: t) = none) :
    scanOnce readFloat (fuel + 1) depth (.char c :: t) = matchNumber readFloat (.char c :: t) := by
  rw [scanOnce, after_cons_of_ne hquote, after_cons_of_ne hbrace, after_cons_of_ne hbracket, h]

end Scalars

/-- A constant is read back. -/
theorem scanOnce_constant {fuel : Nat} {name : List Char} {v : PyValue R} {t : PyStr}
    (hname : ∃ c rest, name = c :: rest ∧ c ≠ '"' ∧ c ≠ '{' ∧ c ≠ '[')
    (hscan : scanConstant (ofChars name ++ t) = some (v, t)) :
    scanOnce readFloat (fuel + 1) depth (ofChars name ++ t) = .ok (v, t) := by
  obtain ⟨c, rest, rfl, hquote, hbrace, hbracket⟩ := hname
  exact scanOnce_of_constant hquote hbrace hbracket hscan

/-- A number is read as one. -/
theorem scanOnce_number {fuel : Nat} {sign digits : List Char} (hsign : sign = [] ∨ sign = ['-'])
    (hdigits : IsInteger digits) (t : PyStr) :
    scanOnce readFloat (fuel + 1) depth (ofChars (sign ++ digits) ++ t) =
      matchNumber readFloat (ofChars (sign ++ digits) ++ t) := by
  have hconstant := scanConstant_number (R := R) hsign hdigits t
  obtain ⟨c, cs, hcons, hhead⟩ := exists_head hsign hdigits
  have hne : c ≠ '"' ∧ c ≠ '{' ∧ c ≠ '[' := by
    rcases hhead with ⟨hc, _⟩ | ⟨rfl, _⟩
    · exact ⟨ne_of_isDigit hc rfl, ne_of_isDigit hc rfl, ne_of_isDigit hc rfl⟩
    · decide
  rw [hcons, ofChars_cons, List.cons_append] at hconstant ⊢
  exact scanOnce_of_number hne.1 hne.2.1 hne.2.2 hconstant

/-- A printed string behind its opening quote. -/
theorem dumps_append (s t : PyStr) : ofChars s.dumps ++ t =
    .char '"' :: (ofChars (s.flatMap escapeAscii) ++ .char '"' :: t) := by
  simp [PyStr.dumps]

/-- There is always fuel for a string. -/
theorem scanString_name (start : Nat) (s t : PyStr) :
    scanString start ((ofChars (s.flatMap escapeAscii) ++ .char '"' :: t).length + 1)
        (ofChars (s.flatMap escapeAscii) ++ .char '"' :: t) = .ok (s.joined, t) := by
  have hlength := length_le_flatMap_escapeAscii s
  refine scanString_dumps start s t ?_
  rw [List.length_append, ofChars, List.length_map, List.length_cons]
  omega

/-- A string is read back. -/
theorem scanOnce_str {fuel : Nat} (s : PyStr) (t : PyStr) :
    scanOnce readFloat (fuel + 1) depth (ofChars s.dumps ++ t) = .ok (.str s.joined, t) := by
  rw [dumps_append, scanOnce, after_cons]
  dsimp only
  rw [scanString_name]
  rfl

theorem skip_space (t : PyStr) : skip (.char ' ' :: t) = skip t := by
  rw [skip, List.dropWhile_cons_of_pos (by decide)]
  rfl

section Loops

variable {fuel : Nat} {s t : PyStr} {v : PyValue R}

/-- The last item of a list. -/
theorem parseArray_last {items : List (PyValue R)}
    (h : scanOnce readFloat fuel depth s = .ok (v, .char ']' :: t)) :
    parseArray readFloat (fuel + 1) depth items s = .ok (.list (items ++ [v]), t) := by
  simp only [parseArray, h, bind, Except.bind, skip_cons_of_ne (c := .char ']') (by decide),
    after_cons]

/-- An item with another one behind it. -/
theorem parseArray_comma {items : List (PyValue R)}
    (h : scanOnce readFloat fuel depth s = .ok (v, .char ',' :: .char ' ' :: t))
    (ht : skip t = t) : parseArray readFloat (fuel + 1) depth items s =
      parseArray readFloat fuel depth (items ++ [v]) t := by
  simp only [parseArray, h, bind, Except.bind, skip_cons_of_ne (c := .char ',') (by decide),
    after_cons, after_cons_of_ne (c := ']') (d := ',') (by decide), skip_space, ht]

/-- The last member of an object. -/
theorem parseObject_last {members : List (PyStr × PyValue R)} (name : PyStr)
    (h : scanOnce readFloat fuel depth s = .ok (v, .char '}' :: t)) (hs : skip s = s) :
    parseObject readFloat (fuel + 1) depth members
        (ofChars name.dumps ++ .char ':' :: .char ' ' :: s) =
      .ok (.dict (setItem name.joined v members), t) := by
  rw [dumps_append, parseObject, after_cons]
  simp only [scanString_name, bind, Except.bind, skip_cons_of_ne (c := .char ':') (by decide),
    after_cons, skip_space, hs, h, skip_cons_of_ne (c := .char '}') (by decide)]

/-- A member with another one behind it. -/
theorem parseObject_comma {members : List (PyStr × PyValue R)} (name : PyStr)
    (h : scanOnce readFloat fuel depth s = .ok (v, .char ',' :: .char ' ' :: t))
    (hs : skip s = s) (ht : skip t = t) :
    parseObject readFloat (fuel + 1) depth members
        (ofChars name.dumps ++ .char ':' :: .char ' ' :: s) =
      parseObject readFloat fuel depth (setItem name.joined v members) t := by
  rw [dumps_append, parseObject, after_cons]
  simp only [scanString_name, bind, Except.bind, skip_cons_of_ne (c := .char ':') (by decide),
    after_cons, skip_space, hs, h, skip_cons_of_ne (c := .char ',') (by decide),
    after_cons_of_ne (c := '}') (d := ',') (by decide), ht]

end Loops

/-- The items of a list are read back, one after the other. -/
theorem parseArray_dumps {items : List (PyValue R)}
    (hitems : ∀ v ∈ items, ReadsBack repr readFloat depth v) (hne : items ≠ [])
    (acc : List (PyValue R)) {fuel : Nat} {t : PyStr}
    (hfuel : 2 * (ofChars (dumpsItems repr items) ++ .char ']' :: t).length + 1 < fuel) :
    parseArray readFloat fuel depth acc (ofChars (dumpsItems repr items) ++ .char ']' :: t) =
      .ok (.list (acc ++ items.map reread), t) := by
  induction items generalizing acc fuel with
  | nil => exact absurd rfl hne
  | cons v vs ih =>
    have hv := hitems v (List.mem_cons_self ..)
    cases fuel with
    | zero => exact absurd hfuel (Nat.not_lt_zero _)
    | succ fuel =>
      cases vs with
      | nil =>
        rw [dumpsItems] at hfuel ⊢
        exact parseArray_last (hv.scan _ _ (numberEnds_bracket t) (by omega))
      | cons w ws =>
        have htext : ofChars (dumpsItems repr (v :: w :: ws)) ++ .char ']' :: t =
            ofChars (dumps repr v) ++ .char ',' :: .char ' ' ::
              (ofChars (dumpsItems repr (w :: ws)) ++ .char ']' :: t) := by
          rw [dumpsItems]
          · simp
          · simp
        rw [htext] at hfuel ⊢
        have hbegins : skip (ofChars (dumpsItems repr (w :: ws)) ++ .char ']' :: t) =
            ofChars (dumpsItems repr (w :: ws)) ++ .char ']' :: t := by
          have hw := hitems w (List.mem_cons_of_mem _ (List.mem_cons_self ..))
          exact (begins_dumpsItems hw.begins ws).skip_eq _
        have hlength := hfuel
        simp only [List.length_append, List.length_cons] at hlength
        rw [parseArray_comma (hv.scan _ _ (numberEnds_comma _) (by omega)) hbegins,
          ih (fun u hu ↦ hitems u (List.mem_cons_of_mem _ hu)) (List.cons_ne_nil _ _) _
            (by simp only [List.length_append, List.length_cons]; omega)]
        simp

/-- The members of an object are read back, one after the other. -/
theorem parseObject_dumps {members : List (PyStr × PyValue R)}
    (hmembers : ∀ m ∈ members, ReadsBack repr readFloat depth m.2) (hne : members ≠ [])
    (acc : List (PyStr × PyValue R)) {fuel : Nat} {t : PyStr}
    (hfuel : 2 * (ofChars (dumpsMembers repr members) ++ .char '}' :: t).length + 1 < fuel) :
    parseObject readFloat fuel depth acc (ofChars (dumpsMembers repr members) ++ .char '}' :: t) =
      .ok (.dict ((rereadMembers members).foldl (fun d m ↦ setItem m.1 m.2 d) acc), t) := by
  induction members generalizing acc fuel with
  | nil => exact absurd rfl hne
  | cons m ms ih =>
    obtain ⟨name, v⟩ := m
    have hv : ReadsBack repr readFloat depth v := hmembers _ (List.mem_cons_self ..)
    have hbegins : ∀ t, skip (ofChars (dumps repr v) ++ t) = ofChars (dumps repr v) ++ t :=
      hv.begins.skip_eq
    cases fuel with
    | zero => exact absurd hfuel (Nat.not_lt_zero _)
    | succ fuel =>
      cases ms with
      | nil =>
        have htext : ofChars (dumpsMembers repr [(name, v)]) ++ .char '}' :: t =
            ofChars name.dumps ++ .char ':' :: .char ' ' ::
              (ofChars (dumps repr v) ++ .char '}' :: t) := by
          rw [dumpsMembers]
          simp
        rw [htext] at hfuel ⊢
        simp only [List.length_append, List.length_cons] at hfuel
        refine parseObject_last name (hv.scan _ _ (numberEnds_brace t) ?_) (hbegins _)
        simp only [List.length_append, List.length_cons]
        omega
      | cons m' ms =>
        obtain ⟨name', v'⟩ := m'
        have htext : ofChars (dumpsMembers repr ((name, v) :: (name', v') :: ms)) ++
            .char '}' :: t = ofChars name.dumps ++ .char ':' :: .char ' ' ::
              (ofChars (dumps repr v) ++ .char ',' :: .char ' ' ::
                (ofChars (dumpsMembers repr ((name', v') :: ms)) ++ .char '}' :: t)) := by
          rw [dumpsMembers]
          · simp
          · exact List.cons_ne_nil _ _
        have hrest := (begins_dumpsMembers repr name' v' ms).skip_eq (.char '}' :: t)
        rw [htext] at hfuel ⊢
        simp only [List.length_append, List.length_cons] at hfuel
        have hscan := hv.scan fuel _ (numberEnds_comma (.char ' ' ::
          (ofChars (dumpsMembers repr ((name', v') :: ms)) ++ .char '}' :: t)))
          (by simp only [List.length_append, List.length_cons]; omega)
        rw [parseObject_comma name hscan (hbegins _) hrest,
          ih (fun m hm ↦ hmembers m (List.mem_cons_of_mem _ hm)) (List.cons_ne_nil _ _) _
            (by simp only [List.length_append, List.length_cons]; omega)]
        rfl

/-- A scan takes at least one step. -/
theorem readsBack_succ {v : PyValue R} (hbegins : Begins (dumps repr v))
    (h : ∀ fuel t, NumberEnds t → 2 * (ofChars (dumps repr v) ++ t).length < fuel + 1 →
      scanOnce readFloat (fuel + 1) depth (ofChars (dumps repr v) ++ t) = .ok (reread v, t)) :
    ReadsBack repr readFloat depth v := by
  refine ⟨hbegins, ?_⟩
  intro fuel t ht hfuel
  cases fuel with
  | zero => exact absurd hfuel (Nat.not_lt_zero _)
  | succ fuel => exact h fuel t ht hfuel

theorem readsBack_bool (b : Bool) : ReadsBack repr readFloat depth (.bool b) := by
  have hfits : Fits repr readFloat depth (.bool b) := .bool b
  refine readsBack_succ (begins_dumps hfits) ?_
  intro fuel t _ _
  rw [dumps.eq_def, reread]
  cases b with
  | true => exact scanOnce_constant ⟨'t', ['r', 'u', 'e'], rfl, by decide⟩ rfl
  | false => exact scanOnce_constant ⟨'f', ['a', 'l', 's', 'e'], rfl, by decide⟩ rfl

theorem scanOnce_float {fuel : Nat} {text : List Char} {t : PyStr} (htext : IsFloatText text)
    (ht : NumberEnds t) : scanOnce readFloat (fuel + 1) depth (ofChars text ++ t) =
      .ok (.float (readFloat text), t) := by
  rw [← matchNumber_float htext ht]
  obtain ⟨sign, digits, fraction, exponent, hsign, hdigits, -, -, -, rfl⟩ := htext
  rw [List.append_assoc, ofChars_append, List.append_assoc]
  exact scanOnce_number hsign hdigits _

theorem readsBack_float {x : PyFloat R} (h : Reprints repr readFloat x) :
    ReadsBack repr readFloat depth (.float x) := by
  have hfits : Fits repr readFloat depth (.float x) := .float h
  refine readsBack_succ (begins_dumps hfits) ?_
  intro fuel t ht _
  rw [dumps, reread]
  cases x with
  | nan => exact scanOnce_constant ⟨'N', ['a', 'N'], rfl, by decide⟩ rfl
  | inf negative =>
    cases negative with
    | true =>
      refine scanOnce_constant ⟨'-', ['I', 'n', 'f', 'i', 'n', 'i', 't', 'y'], rfl, by decide⟩ rfl
    | false =>
      refine scanOnce_constant ⟨'I', ['n', 'f', 'i', 'n', 'i', 't', 'y'], rfl, by decide⟩ rfl
  | finite x =>
    change scanOnce readFloat (fuel + 1) depth (ofChars (repr x) ++ t) = _
    rw [← h.2]
    exact scanOnce_float h.1 ht

/-- A printed integer is read back. -/
theorem readsBack_int {n : Int} (hn : (Nat.toDigits 10 n.natAbs).length ≤ intMaxStrDigits) :
    ReadsBack repr readFloat depth (.int n) := by
  have hfits : Fits repr readFloat depth (.int n) := .int hn
  refine readsBack_succ (begins_dumps hfits) ?_
  intro fuel t ht _
  have hmatch := matchNumber_int readFloat hn ht
  obtain ⟨sign, hsign, htext, -⟩ := toList_toString n
  rw [dumps, reread]
  rw [htext] at hmatch ⊢
  rw [scanOnce_number hsign (isInteger_toDigits _), hmatch]

theorem readsBack_list {items : List (PyValue R)}
    (hitems : ∀ v ∈ items, ReadsBack repr readFloat depth v) :
    ReadsBack repr readFloat (depth + 1) (.list items) := by
  have hopen : dumps repr (.list items) = '[' :: (dumpsItems repr items ++ [']']) := by
    rw [dumps]
    rfl
  refine readsBack_succ ⟨'[', _, hopen, by decide⟩ ?_
  intro fuel t _ hfuel
  have htext : ofChars (dumps repr (.list items)) ++ t =
      .char '[' :: (ofChars (dumpsItems repr items) ++ .char ']' :: t) := by
    rw [hopen]
    simp
  rw [htext] at hfuel ⊢
  rw [List.length_cons] at hfuel
  rw [scanOnce, after_cons_of_ne (by decide), after_cons_of_ne (by decide), after_cons, reread,
    rereadItems_eq]
  dsimp only
  cases items with
  | nil =>
    rw [dumpsItems, ofChars_nil, List.nil_append, skip_cons_of_ne (by decide), after_cons]
    rfl
  | cons v vs =>
    have hbegins := begins_dumpsItems (hitems v (List.mem_cons_self ..)).begins vs
    rw [hbegins.skip_eq]
    have hclose : after ']' (ofChars (dumpsItems repr (v :: vs)) ++ .char ']' :: t) = none := by
      obtain ⟨c, rest, hcons, -, hne, -⟩ := hbegins
      rw [hcons, ofChars_cons, List.cons_append, after_cons_of_ne hne]
    rw [hclose]
    exact parseArray_dumps hitems (List.cons_ne_nil _ _) [] (by omega)

theorem readsBack_dict {members : List (PyStr × PyValue R)}
    (hmembers : ∀ m ∈ members, ReadsBack repr readFloat depth m.2) :
    ReadsBack repr readFloat (depth + 1) (.dict members) := by
  have hopen : dumps repr (.dict members) = '{' :: (dumpsMembers repr members ++ ['}']) := by
    rw [dumps]
    rfl
  refine readsBack_succ ⟨'{', _, hopen, by decide⟩ ?_
  intro fuel t _ hfuel
  have htext : ofChars (dumps repr (.dict members)) ++ t =
      .char '{' :: (ofChars (dumpsMembers repr members) ++ .char '}' :: t) := by
    rw [hopen]
    simp
  rw [htext] at hfuel ⊢
  rw [List.length_cons] at hfuel
  rw [scanOnce, after_cons_of_ne (by decide), after_cons, reread]
  dsimp only
  cases members with
  | nil =>
    rw [dumpsMembers, ofChars_nil, List.nil_append, skip_cons_of_ne (by decide), after_cons]
    rfl
  | cons m ms =>
    obtain ⟨name, v⟩ := m
    have hbegins := begins_dumpsMembers repr name v ms
    rw [hbegins.skip_eq]
    have hclose : after '}' (ofChars (dumpsMembers repr ((name, v) :: ms)) ++ .char '}' :: t) =
        none := by
      obtain ⟨c, rest, hcons, -, -, hne⟩ := hbegins
      rw [hcons, ofChars_cons, List.cons_append, after_cons_of_ne hne]
    rw [hclose]
    exact parseObject_dumps hmembers (List.cons_ne_nil _ _) [] (by omega)

/-- What Python prints is read back. -/
theorem readsBack_of_fits {v : PyValue R} (h : Fits repr readFloat depth v) :
    ReadsBack repr readFloat depth v := by
  induction h with
  | @null depth =>
    have hfits : Fits repr readFloat depth .null := .null
    refine readsBack_succ (begins_dumps hfits) ?_
    intro fuel t _ _
    rw [dumps, reread]
    exact scanOnce_constant ⟨'n', ['u', 'l', 'l'], rfl, by decide⟩ rfl
  | bool b => exact readsBack_bool b
  | int hdigits => exact readsBack_int hdigits
  | float hx => exact readsBack_float hx
  | @str depth s =>
    have hfits : Fits repr readFloat depth (.str s) := .str s
    refine readsBack_succ (begins_dumps hfits) ?_
    intro fuel t _ _
    rw [dumps, reread]
    exact scanOnce_str s t
  | list _ ih => exact readsBack_list ih
  | dict _ ih => exact readsBack_dict ih

/-- `json.loads` reads what `json.dumps` prints. -/
theorem decode_dumps {v : PyValue R} (h : Fits repr readFloat depth v) :
    decode readFloat depth (ofChars (dumps repr v)) = .ok (reread v) := by
  have hends : NumberEnds [] := by
    intro c rest hnil
    cases hnil
  have hback := readsBack_of_fits h
  have hread := hback.scan (2 * (ofChars (dumps repr v)).length + 1) [] hends
    (by rw [List.append_nil]; exact Nat.lt_succ_self _)
  have hskip := hback.begins.skip_eq []
  rw [List.append_nil] at hread hskip
  rw [decode, hskip, hread]
  rfl

end Values

end PyValue

end PotholeServer
