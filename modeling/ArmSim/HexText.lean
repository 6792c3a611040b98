import ArmSim.Breakpoints
import ArmSim.Scanner

/-! Hexadecimal text: the digits that `snprintf` writes and the numbers that `sscanf` and
`atoi` read, and C strings inside the text of a packet. -/
namespace ArmSim
open Lib

/-- A lower-case hexadecimal digit. -/
def hexDigit (d : ℕ) : Byte :=
  if d < 10 then BitVec.ofNat 8 (0x30 + d) else BitVec.ofNat 8 (0x57 + d)

/-- `%0nx`, for a value that `n` digits can hold. -/
def hexText : ℕ → ℕ → List Byte
  | 0, _ => []
  | n + 1, v => hexText n (v / 16) ++ [hexDigit (v % 16)]

/-- The value of a digit that `isHex` accepts. -/
def digitValue (c : Byte) : ℕ :=
  if c ≤ 0x39 then c.toNat - 0x30 else if c ≤ 0x46 then c.toNat - 0x37 else c.toNat - 0x57

def hexValue (s : List Byte) : ℕ := s.foldl (fun v c => 16 * v + digitValue c) 0

/-- The characters of a string constant. -/
def text (s : String) : List Byte := s.toList.map (fun c => BitVec.ofNat 8 c.toNat)

/-- The C string at a pointer into the text of a packet: what lies before the next NUL. -/
def cString : List Byte → Except GdbFault (List Byte)
  | [] => .error .packetText
  | c :: data => if c = 0 then .ok [] else do return c :: (← cString data)

def isSpace (c : Byte) : Bool := c == 0x20 || (0x09 ≤ c && c ≤ 0x0D)

/-- A sign and what follows it. -/
def scanSign : List Byte → Bool × List Byte
  | c :: s => if c = 0x2D then (true, s) else if c = 0x2B then (false, s) else (false, c :: s)
  | [] => (false, [])

/-- The prefix `0x` is skipped. -/
def skipHexPrefix : List Byte → List Byte
  | c :: x :: s => if c = 0x30 ∧ (x = 0x78 ∨ x = 0x58) then s else c :: x :: s
  | s => s

-- `strtoul` saturates, and negates in 64 bits.
def strtoul (negative : Bool) (value : ℕ) : ℕ :=
  if 2^64 ≤ value then 2^64 - 1 else if negative then (2^64 - value) % 2^64 else value

/-- The conversion `%x` of `sscanf` with an optional field width: the number and the rest of
the input, or a matching failure. -/
def scanHex (width : Option ℕ) (s : List Byte) : Option (ℕ × List Byte) :=
  let s := s.dropWhile isSpace
  let field := match width with
    | some w => s.take w
    | none => s
  let (negative, digits) := scanSign field
  let digits := skipHexPrefix digits
  let number := digits.takeWhile isHex
  if number = [] then none
  else some (strtoul negative (hexValue number),
    digits.dropWhile isHex ++ s.drop field.length)

/-- `sscanf(data, "%x", &value)`: a variable keeps its content when its conversion fails. -/
def sscanfX (width : Option ℕ) (data : List Byte) (value : Word) : Except GdbFault Word := do
  let s ← cString data
  match scanHex width s with
  | some (v, _) => return BitVec.ofNat 32 v
  | none => return value

/-- `sscanf(data, "%x,%x", &address, &size)` -/
def sscanfXX (data : List Byte) (address size : Word) : Except GdbFault (Word × Word) := do
  let s ← cString data
  match scanHex none s with
  | none => return (address, size)
  | some (a, s) =>
    match s with
    | 0x2C :: s =>
      match scanHex none s with
      | none => return (BitVec.ofNat 32 a, size)
      | some (n, _) => return (BitVec.ofNat 32 a, BitVec.ofNat 32 n)
    | _ => return (BitVec.ofNat 32 a, size)

/-- `sscanf(data, "%hhx,%x,%x", &type, &address, &length)`, of which `length` is not used. -/
def sscanfHhxX (data : List Byte) (type : Byte) (address : Word) :
    Except GdbFault (Byte × Word) := do
  let s ← cString data
  match scanHex none s with
  | none => return (type, address)
  | some (t, s) =>
    match s with
    | 0x2C :: s =>
      match scanHex none s with
      | none => return (BitVec.ofNat 8 t, address)
      | some (a, _) => return (BitVec.ofNat 8 t, BitVec.ofNat 32 a)
    | _ => return (BitVec.ofNat 8 t, address)

def isDecimal (c : Byte) : Bool := 0x30 ≤ c && c ≤ 0x39

def decimalValue (s : List Byte) : ℕ := s.foldl (fun v c => 10 * v + (c.toNat - 0x30)) 0

-- `strtol` saturates in 64 bits, and the conversion to `int` keeps the low 32.
def atoi (data : List Byte) : Except GdbFault Word := do
  let s ← cString data
  let (negative, digits) := scanSign (s.dropWhile isSpace)
  let value := decimalValue (digits.takeWhile isDecimal)
  if negative then return BitVec.ofInt 32 (-(min value (2^63) : ℕ))
  else return BitVec.ofNat 32 (min value (2^63 - 1))

/-- A pointer that a handler computes: into the packet's text, or `NULL + 1`. -/
abbrev TextPointer := Option (List Byte)

/-- `index(data, c) + 1` for a `c` other than NUL. -/
def indexNext (data : List Byte) (c : Byte) : Except GdbFault TextPointer :=
  match data with
  | [] => .error .packetText
  | d :: data => if d = c then .ok (some data) else if d = 0 then .ok none else indexNext data c

/-- Follow a pointer. -/
def TextPointer.deref : TextPointer → Except GdbFault (List Byte)
  | some data => .ok data
  | none => .error .nullPointer

theorem hexDigit_spec {d : ℕ} (h : d < 16) :
    isHex (hexDigit d) = true ∧ digitValue (hexDigit d) = d := by
  have hall : ∀ d < 16, isHex (hexDigit d) = true ∧ digitValue (hexDigit d) = d := by decide
  exact hall d h

@[simp] theorem length_hexText (n v : ℕ) : (hexText n v).length = n := by
  induction n generalizing v with
  | zero => rfl
  | succ n ih => rw [hexText, List.length_append, ih, List.length_singleton]

theorem isHex_hexText (n v : ℕ) : ∀ c ∈ hexText n v, isHex c = true := by
  induction n generalizing v with
  | zero => exact fun c hc => absurd hc List.not_mem_nil
  | succ n ih =>
    intro c hc
    rcases List.mem_append.mp hc with hc | hc
    · exact ih (v / 16) c hc
    · rw [List.mem_singleton.mp hc]
      exact (hexDigit_spec (Nat.mod_lt v (by decide))).1

theorem hexValue_append (s : List Byte) (c : Byte) :
    hexValue (s ++ [c]) = 16 * hexValue s + digitValue c := by
  simp [hexValue]

theorem hexValue_hexText {n v : ℕ} (h : v < 16^n) : hexValue (hexText n v) = v := by
  -- The last digit is the remainder, and the digits before it are those of the quotient.
  induction n generalizing v with
  | zero =>
    have hv : v = 0 := by simpa using h
    rw [hv]
    rfl
  | succ n ih =>
    have hdiv : v / 16 < 16^n := by
      rw [Nat.pow_succ] at h
      omega
    rw [hexText, hexValue_append, ih hdiv, (hexDigit_spec (Nat.mod_lt v (by decide))).2]
    omega

theorem digitValue_lt {c : Byte} (h : isHex c = true) : digitValue c < 16 := by
  have hall : ∀ c : Byte, isHex c = true → digitValue c < 16 := by decide
  exact hall c h

theorem hexValue_lt {s : List Byte} (h : ∀ c ∈ s, isHex c = true) : hexValue s < 16^s.length := by
  induction s using List.reverseRecOn with
  | nil => decide
  | append_singleton s c ih =>
    have hs := ih (fun d hd => h d (List.mem_append_left _ hd))
    have hc := digitValue_lt (h c (List.mem_append_right _ List.mem_cons_self))
    rw [hexValue_append, List.length_append, List.length_singleton, Nat.pow_succ]
    omega

/-- No digit is a space, a sign, the `x` of a prefix or one of the characters that delimit
numbers and packets. -/
theorem isHex_ne {c : Byte} (h : isHex c = true) : isSpace c = false ∧ c ≠ 0x2D ∧ c ≠ 0x2B ∧
    c ≠ 0x78 ∧ c ≠ 0x58 ∧ c ≠ 0 ∧ c ≠ 0x24 ∧ c ≠ 0x23 ∧ c ≠ 0x3A ∧ c ≠ 0x2C := by
  have hall : ∀ c : Byte, isHex c = true → isSpace c = false ∧ c ≠ 0x2D ∧ c ≠ 0x2B ∧
    c ≠ 0x78 ∧ c ≠ 0x58 ∧ c ≠ 0 ∧ c ≠ 0x24 ∧ c ≠ 0x23 ∧ c ≠ 0x3A ∧ c ≠ 0x2C := by decide
  exact hall c h

/-- The next character cannot belong to a number. -/
def EndsNumber (s : List Byte) : Prop :=
  ∀ c t, s = c :: t → isHex c = false ∧ c ≠ 0x78 ∧ c ≠ 0x58

theorem takeWhile_hex {ds : List Byte} (rest : List Byte) (hd : ∀ c ∈ ds, isHex c = true)
    (hr : ∀ c t, rest = c :: t → isHex c = false) :
    (ds ++ rest).takeWhile isHex = ds ∧ (ds ++ rest).dropWhile isHex = rest := by
  induction ds with
  | nil =>
    cases rest with
    | nil => exact ⟨rfl, rfl⟩
    | cons c t =>
      have hc := hr c t rfl
      simp [hc]
  | cons c ds ih =>
    have hc := hd c List.mem_cons_self
    obtain ⟨h1, h2⟩ := ih (fun d hd' => hd d (List.mem_cons_of_mem _ hd'))
    simp [hc, h1, h2]

/-- A nonempty text of digits loses neither a sign nor a prefix. -/
theorem scan_lead {ds : List Byte} (rest : List Byte) (hne : ds ≠ [])
    (hd : ∀ c ∈ ds, isHex c = true) (hr : ds.length = 1 → EndsNumber rest) :
    (ds ++ rest).dropWhile isSpace = ds ++ rest ∧ scanSign (ds ++ rest) = (false, ds ++ rest) ∧
      skipHexPrefix (ds ++ rest) = ds ++ rest := by
  obtain ⟨c, ds, rfl⟩ := List.exists_cons_of_ne_nil hne
  obtain ⟨hspace, hminus, hplus, -⟩ := isHex_ne (hd c List.mem_cons_self)
  -- Behind one digit `0` an `x` would make a prefix.
  have hx : ∀ x s, ds ++ rest = x :: s → x ≠ 0x78 ∧ x ≠ 0x58 := by
    intro x s hs
    cases ds with
    | nil =>
      obtain ⟨-, h1, h2⟩ := hr rfl x s hs
      exact ⟨h1, h2⟩
    | cons d ds =>
      obtain ⟨rfl, -⟩ := List.cons.inj hs
      have hne := isHex_ne (hd d (List.mem_cons_of_mem _ List.mem_cons_self))
      exact ⟨hne.2.2.2.1, hne.2.2.2.2.1⟩
  rw [List.cons_append]
  refine ⟨by simp [hspace], ?_, ?_⟩
  · rw [scanSign, if_neg hminus, if_neg hplus]
  · cases hds : ds ++ rest with
    | nil => rfl
    | cons x s =>
      obtain ⟨h1, h2⟩ := hx x s hds
      rw [skipHexPrefix, if_neg (fun h => h.2.elim h1 h2)]

theorem strtoul_false (value : ℕ) : strtoul false value = min value (2^64 - 1) := by
  unfold strtoul
  split <;> simp <;> omega

/-- `%x` reads a number that ends where the digits do, and saturates. -/
theorem scanHex_number {ds : List Byte} (rest : List Byte) (hne : ds ≠ [])
    (hd : ∀ c ∈ ds, isHex c = true) (hr : EndsNumber rest) :
    scanHex none (ds ++ rest) = some (min (hexValue ds) (2^64 - 1), rest) := by
  obtain ⟨hspace, hsign, hprefix⟩ := scan_lead rest hne hd (fun _ => hr)
  obtain ⟨htake, hdrop⟩ := takeWhile_hex rest hd (fun c t h => (hr c t h).1)
  unfold scanHex
  simp only [hspace, hsign, hprefix, htake, hdrop, if_neg hne, strtoul_false]
  simp

theorem scanHex_digits {ds : List Byte} (rest : List Byte) (hne : ds ≠ [])
    (hd : ∀ c ∈ ds, isHex c = true) (hv : hexValue ds < 2^64) (hr : EndsNumber rest) :
    scanHex none (ds ++ rest) = some (hexValue ds, rest) := by
  rw [scanHex_number rest hne hd hr, Nat.min_eq_left (by omega)]

/-- A width that the digits do not fill up does not matter. -/
theorem scanHex_short {ds : List Byte} {w : ℕ} (hne : ds ≠ []) (hd : ∀ c ∈ ds, isHex c = true)
    (hlen : ds.length ≤ w) :
    scanHex (some w) ds = some (min (hexValue ds) (2^64 - 1), []) := by
  have hnone := scanHex_number [] hne hd (fun c t h => by cases h)
  obtain ⟨hspace, -, -⟩ := scan_lead [] hne hd (fun _ c t h => by cases h)
  rw [List.append_nil] at hnone hspace
  unfold scanHex at hnone ⊢
  simp only [hspace, List.take_of_length_le hlen] at hnone ⊢
  exact hnone

/-- `%nx` reads `n` digits, whatever follows them. -/
theorem scanHex_width {ds : List Byte} (rest : List Byte) (hlen : 2 ≤ ds.length)
    (hd : ∀ c ∈ ds, isHex c = true) (hv : hexValue ds < 2^64) :
    scanHex (some ds.length) (ds ++ rest) = some (hexValue ds, rest) := by
  -- The width cuts the text off, so the digits are scanned with nothing behind them.
  have hne : ds ≠ [] := List.ne_nil_of_length_pos (by omega)
  obtain ⟨hspace, -, -⟩ := scan_lead rest hne hd (fun h => by omega)
  obtain ⟨-, hsign, hprefix⟩ := scan_lead [] hne hd (fun h => by omega)
  obtain ⟨htake, hdrop⟩ := takeWhile_hex [] hd (fun c t h => by cases h)
  rw [List.append_nil] at hsign hprefix htake hdrop
  unfold scanHex
  simp only [hspace, List.take_left, hsign, hprefix, htake, hdrop, if_neg hne, List.drop_left]
  rw [strtoul, if_neg (Nat.not_le.mpr hv)]
  simp

/-- A text without a NUL is the start of the C string. -/
theorem cString_lead {s rest t : List Byte} (h : ∀ c ∈ s, c ≠ 0) (hrest : cString rest = .ok t) :
    cString (s ++ rest) = .ok (s ++ t) := by
  induction s with
  | nil => exact hrest
  | cons c s ih =>
    have hc := h c List.mem_cons_self
    rw [List.cons_append]
    unfold cString
    rw [if_neg hc, ih (fun d hd => h d (List.mem_cons_of_mem _ hd))]
    rfl

theorem cString_append {s : List Byte} (h : ∀ c ∈ s, c ≠ 0) (rest : List Byte) :
    cString (s ++ 0 :: rest) = .ok s := by
  have hnul : cString (0 :: rest) = .ok [] := rfl
  rw [cString_lead h hnul, List.append_nil]

theorem cString_total (s rest : List Byte) : ∃ t, cString (s ++ 0 :: rest) = .ok t := by
  induction s with
  | nil => exact ⟨[], rfl⟩
  | cons c s ih =>
    obtain ⟨t, ht⟩ := ih
    by_cases hc : c = 0
    · exact ⟨[], if_pos hc⟩
    · refine ⟨c :: t, ?_⟩
      rw [List.cons_append]
      unfold cString
      rw [if_neg hc, ht]
      rfl

/-- A hexadecimal number of one digit or more. -/
structure Numeral (ds : List Byte) (v : ℕ) : Prop where
  ne_nil : ds ≠ []
  digits : ∀ c ∈ ds, isHex c = true
  value : hexValue ds = v

section numerals
variable {da dn rest t : List Byte} {a n : Word}

theorem Numeral.scan {ds : List Byte} (h : Numeral ds a.toNat) (rest : List Byte)
    (hrest : EndsNumber rest) : scanHex none (ds ++ rest) = some (a.toNat, rest) := by
  have hlt : hexValue ds < 2^64 := by
    rw [h.value]
    exact a.isLt.trans (by decide)
  have hscan := scanHex_digits rest h.ne_nil h.digits hlt hrest
  rwa [h.value] at hscan

/-- Two numbers with a comma between them are read, whatever the second one ends at. -/
theorem sscanfXX_numerals (ha : Numeral da a.toNat) (hn : Numeral dn n.toNat)
    (hrest : cString rest = .ok t) (ht : EndsNumber t) (address size : Word) :
    sscanfXX (da ++ 0x2C :: (dn ++ rest)) address size = .ok (a, n) := by
  have hnul {ds : List Byte} (h : ∀ c ∈ ds, isHex c = true) : ∀ c ∈ ds, c ≠ 0 :=
    fun c hc => (isHex_ne (h c hc)).2.2.2.2.2.1
  have hcomma : EndsNumber (0x2C :: (dn ++ t)) := by
    intro c s hs
    obtain ⟨rfl, -⟩ := List.cons.inj hs
    decide
  have htail : cString (0x2C :: (dn ++ rest)) = .ok (0x2C :: (dn ++ t)) := by
    have hdn := cString_lead (hnul hn.digits) hrest
    exact cString_lead (s := [0x2C]) (by decide) hdn
  unfold sscanfXX
  rw [cString_lead (hnul ha.digits) htail, ok_bind, ha.scan _ hcomma]
  -- The comma of the format matches the comma of the text.
  change (match scanHex none (dn ++ t) with
    | none => _
    | some (v, _) => Except.ok (BitVec.ofNat 32 a.toNat, BitVec.ofNat 32 v)) = _
  rw [hn.scan t ht]
  simp

end numerals

theorem ne_of_isHex {c d : Byte} (hc : isHex c = true) (hd : isHex d = false) : c ≠ d := by
  rintro rfl
  exact Bool.false_ne_true (hd.symm.trans hc)

section atoi
variable {ds : List Byte} (hd : ∀ c ∈ ds, isHex c = true)
include hd

/-- The decimal digits at the start of a text of hexadecimal ones are what `atoi` reads. -/
theorem atoi_digits (rest : List Byte) :
    atoi (ds ++ 0 :: rest) =
      .ok (BitVec.ofNat 32 (min (decimalValue (ds.takeWhile isDecimal)) (2^63 - 1))) := by
  have hlead : ds.dropWhile isSpace = ds ∧ scanSign ds = (false, ds) := by
    cases ds with
    | nil => exact ⟨rfl, rfl⟩
    | cons c ds =>
      obtain ⟨hspace, hsign, -⟩ := scan_lead [] (List.cons_ne_nil c ds) hd
        (fun _ c t h => by cases h)
      rw [List.append_nil] at hspace hsign
      exact ⟨hspace, hsign⟩
  unfold atoi
  rw [cString_append (fun c hc => (isHex_ne (hd c hc)).2.2.2.2.2.1), ok_bind, hlead.1, hlead.2]
  rfl

theorem zeros_of_hexValue (h : hexValue ds = 0) : ∀ c ∈ ds, c = 0x30 := by
  have hzero : ∀ c : Byte, isHex c = true → digitValue c = 0 → c = 0x30 := by decide
  induction ds using List.reverseRecOn with
  | nil => exact fun c hc => absurd hc List.not_mem_nil
  | append_singleton s d ih =>
    rw [hexValue_append] at h
    intro c hc
    rcases List.mem_append.mp hc with hs | hlast
    · exact ih (fun e he => hd e (List.mem_append_left _ he)) (by omega) c hs
    · rw [List.mem_singleton.mp hlast] at hc ⊢
      exact hzero d (hd d hc) (by omega)

omit hd in
theorem decimalValue_zeros (h : ∀ c ∈ ds, c = 0x30) (t : List Byte) :
    decimalValue ((ds ++ t).takeWhile isDecimal) = decimalValue (t.takeWhile isDecimal) := by
  induction ds with
  | nil => rfl
  | cons c ds ih =>
    have hc := h c List.mem_cons_self
    rw [← ih (fun d hd => h d (List.mem_cons_of_mem _ hd)), hc]
    rfl

/-- Of the one-digit numbers `atoi` reads those below ten, and the others as nothing. -/
theorem decimal_prefix (hne : ds ≠ []) (hlt : hexValue ds < 16) :
    decimalValue (ds.takeWhile isDecimal) = if hexValue ds < 10 then hexValue ds else 0 := by
  have hone : ∀ c : Byte, isHex c = true →
      decimalValue ([c].takeWhile isDecimal) = if digitValue c < 10 then digitValue c else 0 := by
    decide
  obtain ⟨s, d, rfl⟩ := (List.eq_nil_or_concat' ds).resolve_left hne
  rw [hexValue_append] at hlt ⊢
  have hzero : hexValue s = 0 := by omega
  have hs := zeros_of_hexValue (fun c hc => hd c (List.mem_append_left _ hc)) hzero
  rw [decimalValue_zeros hs, hone d (hd d (List.mem_append_right _ List.mem_cons_self)), hzero]
  simp

end atoi

/-- Only what lies before the NUL is read. -/
theorem cString_cut (s rest : List Byte) : cString (s ++ 0 :: rest) = cString (s ++ [0]) := by
  induction s with
  | nil => rfl
  | cons c s ih =>
    rw [List.cons_append, List.cons_append, cString, cString, ih]

theorem sscanfXX_cut (s rest : List Byte) (address size : Word) :
    sscanfXX (s ++ 0 :: rest) address size = sscanfXX (s ++ [0]) address size := by
  unfold sscanfXX
  rw [cString_cut]

theorem sscanfHhxX_cut (s rest : List Byte) (type : Byte) (address : Word) :
    sscanfHhxX (s ++ 0 :: rest) type address = sscanfHhxX (s ++ [0]) type address := by
  unfold sscanfHhxX
  rw [cString_cut]

section conversions
variable {E : GdbFault → Prop}

/-- A text is read up to its NUL, or past its end. -/
theorem cString_raises (hE : E .packetText) (data : List Byte) :
    Ends (cString data) (fun _ => True) E := by
  induction data with
  | nil => exact hE
  | cons c data ih =>
    unfold cString
    exact ends_ite (fun _ => trivial) (fun _ => ih.bind (fun _ _ => trivial))

theorem cString_nul (s : List Byte) : Ends (cString (s ++ [0])) (fun _ => True) E := by
  obtain ⟨t, ht⟩ := cString_total s []
  rw [ht]
  trivial

variable {data : List Byte} (h : Ends (cString data) (fun _ => True) E)
include h

/-- The conversions read the string and nothing else. -/
theorem sscanfX_raises (width : Option ℕ) (value : Word) :
    Ends (sscanfX width data value) (fun _ => True) E := by
  unfold sscanfX
  apply h.bind
  intro s _
  split <;> trivial

theorem sscanfXX_raises (address size : Word) :
    Ends (sscanfXX data address size) (fun _ => True) E := by
  unfold sscanfXX
  apply h.bind
  intro s _
  split
  · trivial
  · split
    · split <;> trivial
    · trivial

theorem sscanfHhxX_raises (type : Byte) (address : Word) :
    Ends (sscanfHhxX data type address) (fun _ => True) E := by
  unfold sscanfHhxX
  apply h.bind
  intro s _
  split
  · trivial
  · split
    · split <;> trivial
    · trivial

theorem atoi_raises : Ends (atoi data) (fun _ => True) E := by
  unfold atoi
  apply h.bind
  intro s _
  exact ends_ite (fun _ => trivial) (fun _ => trivial)

end conversions

theorem indexNext_append {s : List Byte} {c : Byte} (h : ∀ d ∈ s, d ≠ c ∧ d ≠ 0)
    (rest : List Byte) : indexNext (s ++ c :: rest) c = .ok (some rest) := by
  induction s with
  | nil => exact if_pos rfl
  | cons d s ih =>
    obtain ⟨hc, hnul⟩ := h d List.mem_cons_self
    rw [List.cons_append]
    unfold indexNext
    rw [if_neg hc, if_neg hnul]
    exact ih (fun e he => h e (List.mem_cons_of_mem _ he))

end ArmSim
