import Mathlib.Algebra.Group.Nat.Defs
import BatchScript.Proofs.Text.Readers

/-!
# Numbers read back

A number in decimal is read as far as its digits go, so no digit may follow it; a number in
hexadecimal is read to a width that is known.

> `readInt_ofInt`: a number in decimal is read back, whatever follows that is no digit;
> `reads_hex`: a number in hexadecimal is read back from so many digits, if they hold it.
-/

namespace BatchScript

namespace Text

/-! ## Decimal numbers -/

/-- The number that the digits at the front of a text make. -/
def readNat : Reader Nat := fun t =>
  match (t.takeWhile isNumeral).filterMap CodePoint.char? with
  | [] => none
  | c :: cs => some (Nat.ofDigitChars 10 (c :: cs) 0, t.dropWhile isNumeral)

/-- The number at the front of a text, which may have a sign. -/
def readInt : Reader Int := fun t =>
  match t with
  | '-' :: t => (readNat t).map fun (n, rest) => (-n, rest)
  | t => (readNat t).map fun (n, rest) => (n, rest)

/-- A number is written with digits only. -/
theorem isNumeral_of_mem_ofNat {n : Nat} {c : CodePoint} (h : c ∈ ofNat n) :
    isNumeral c = true := by
  obtain ⟨digit, hdigit, rfl⟩ := List.mem_map.1 h
  exact Nat.isDigit_of_mem_toDigits (by decide) (by decide) hdigit

/-- A natural number is read back, whatever follows that is no digit. -/
theorem readNat_ofNat (n : Nat) {rest : Text} (hrest : startsWithDigit rest = false) :
    readNat (ofNat n ++ rest) = some (n, rest) := by
  have hdigits : ∀ c ∈ ofNat n, isNumeral c = true := fun c => isNumeral_of_mem_ofNat
  have hstop : rest.takeWhile isNumeral = [] ∧ rest.dropWhile isNumeral = rest := by
    cases rest with
    | nil => exact ⟨rfl, rfl⟩
    | cons c cs =>
      have hc : isNumeral c = false := hrest
      simp [hc]
  have hchars : (ofNat n).filterMap CodePoint.char? = Nat.toDigits 10 n := by
    simp [ofNat, List.filterMap_map, Function.comp_def, CodePoint.char?]
  have hnat := Nat.ofDigitChars_ten_toDigits (n := n)
  rw [readNat, List.takeWhile_append_of_pos hdigits, List.dropWhile_append_of_pos hdigits, hstop.1,
    hstop.2, List.append_nil, hchars]
  obtain ⟨c, cs, hcons⟩ := List.exists_cons_of_ne_nil (Nat.toDigits_ne_nil (n := n) (b := 10))
  rw [hcons] at hnat ⊢
  exact congrArg (fun m => some (m, rest)) hnat

/-- The digits of a number start with no sign. -/
theorem ofNat_eq_cons (n : Nat) :
    ∃ c cs, ofNat n = c :: cs ∧ isNumeral c = true ∧ c ≠ '-' := by
  have hne : ofNat n ≠ [] := List.map_eq_nil_iff.not.2 (Nat.toDigits_ne_nil (n := n) (b := 10))
  obtain ⟨c, cs, hcons⟩ := List.exists_cons_of_ne_nil hne
  have hmem : c ∈ ofNat n := by
    rw [hcons]
    exact List.mem_cons_self
  have hc : isNumeral c = true := isNumeral_of_mem_ofNat hmem
  refine ⟨c, cs, hcons, hc, ?_⟩
  rintro rfl
  cases hc

/-- A number starts with a digit or a sign. -/
theorem ofInt_eq_cons (n : Int) : ∃ c cs, ofInt n = c :: cs ∧ (isNumeral c = true ∨ c = '-') := by
  cases n with
  | ofNat n =>
    obtain ⟨c, cs, hcons, hdigit, -⟩ := ofNat_eq_cons n
    exact ⟨c, cs, hcons, .inl hdigit⟩
  | negSucc n => exact ⟨'-', _, rfl, .inr rfl⟩

/-- A number is read back, whatever follows that is no digit. -/
theorem readInt_ofInt (n : Int) {rest : Text} (hrest : startsWithDigit rest = false) :
    readInt (ofInt n ++ rest) = some (n, rest) := by
  cases n with
  | ofNat n =>
    have hread := readNat_ofNat n hrest
    obtain ⟨c, cs, hcons, -, hsign⟩ := ofNat_eq_cons n
    rw [hcons, List.cons_append] at hread
    rw [ofInt, hcons, List.cons_append, readInt, hread]
    · rfl
    · rintro t h
      exact hsign (List.cons.inj h).1
  | negSucc n =>
    rw [ofInt, List.cons_append, readInt, readNat_ofNat (n + 1) hrest]
    rfl

/-- A number up to a mark, which is taken too. -/
def readIntUntil (mark : CodePoint) : Reader Int := do
  let n ← readInt
  (fun _ => n) <$> expect [mark]

/-- A number is read up to a mark that is no digit. -/
theorem reads_intUntil {mark : CodePoint} (h : isNumeral mark = false) (n : Int) :
    Reads (readIntUntil mark) n (ofInt n ++ [mark]) := by
  intro rest
  show (readInt (ofInt n ++ [mark] ++ rest)).bind _ = _
  have hrest : startsWithDigit ([mark] ++ rest) = false := h
  rw [List.append_assoc, readInt_ofInt n hrest]
  exact (reads_expect [mark]).map (fun _ => n) rest

/-- A number holds digits and a sign only. -/
theorem not_mem_ofInt {c : CodePoint} (hdigit : isNumeral c = false) (hsign : c ≠ '-')
    (n : Int) : c ∉ ofInt n := by
  have hdigits : ∀ n, c ∉ ofNat n := fun n hc => by
    rw [isNumeral_of_mem_ofNat hc] at hdigit
    cases hdigit
  cases n with
  | ofNat n => exact hdigits n
  | negSucc n =>
    rw [ofInt, List.mem_cons, not_or]
    exact ⟨hsign, hdigits (n + 1)⟩

/-! ## Hexadecimal numbers -/

/-- The number that a hexadecimal digit stands for. -/
def hexValue? (c : CodePoint) : Option Nat :=
  (List.range 16).find? fun n => hexDigit n == c

/-- A hexadecimal digit. -/
def readHexDigit : Reader Nat := fun t =>
  match t with
  | [] => none
  | c :: rest => (hexValue? c).map fun n => (n, rest)

/-- The number that so many hexadecimal digits make. -/
def readHex : (width : Nat) → Reader Nat
  | 0 => pure 0
  | width + 1 => do
    let leading ← readHex width
    (16 * leading + ·) <$> readHexDigit

theorem hexValue?_hexDigit (n : Nat) : hexValue? (hexDigit n) = some (n % 16) := by
  have hall : ∀ k < 16, hexValue? (hexDigit k) = some k := by decide
  have hmod : hexDigit n = hexDigit (n % 16) := by simp [hexDigit]
  rw [hmod]
  exact hall _ (Nat.mod_lt n (by decide))

theorem reads_hexDigit (n : Nat) : Reads readHexDigit (n % 16) [hexDigit n] := by
  intro rest
  rw [List.singleton_append, readHexDigit, hexValue?_hexDigit]
  rfl

/-- A number that has its digits is read back. -/
theorem reads_hex {width n : Nat} (h : n < 16 ^ width) : Reads (readHex width) n (hex width n) := by
  induction width generalizing n with
  | zero =>
    obtain rfl : n = 0 := Nat.lt_one_iff.1 h
    exact fun _ => rfl
  | succ width ih =>
    have hlead : n / 16 < 16 ^ width := Nat.div_lt_of_lt_mul (by rwa [Nat.pow_succ'] at h)
    have hdigit : Reads ((16 * (n / 16) + ·) <$> readHexDigit) n [hexDigit n] := by
      have hmap := (reads_hexDigit n).map (16 * (n / 16) + ·)
      rwa [Nat.div_add_mod] at hmap
    exact Reads.bind (ih hlead) hdigit

end Text

end BatchScript
