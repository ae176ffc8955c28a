import Mathlib.Algebra.Group.Nat.Defs
import Mathlib.Data.List.TakeWhile

namespace text

/-- The character that ends a C string. -/
def NUL : Char := Char.ofNat 0

/-- The text in an array of characters: what stands before the first NUL. -/
def cString (buf : List Char) : List Char := buf.takeWhile (· ≠ NUL)

/-- What `snprintf` writes of a formatted text into an array of `size` characters. -/
def snprintf (size : Nat) (formatted : List Char) : List Char := formatted.take (size - 1) ++ [NUL]

/-- A number under the conversion `%u`. -/
def decimal (n : Nat) : List Char := Nat.toDigits 10 n

/-- A number under the conversion `%d`. -/
def decimalInt : Int → List Char
  | .ofNat n => decimal n
  | .negSucc n => '-' :: decimal (n + 1)

/-- The value of a letter or digit as a digit. -/
def digitValue (c : Char) : Nat :=
  if c.isDigit then c.toNat - '0'.toNat
  else if c.isLower then c.toNat - 'a'.toNat + 10
  else c.toNat - 'A'.toNat + 10

def isDigitOf (base : Nat) (c : Char) : Bool := c.isAlphanum && decide (digitValue c < base)

/-- The number that the digits in front of a text make, and the text behind them. -/
def readDigits (base : Nat) (nptr : List Char) : Nat × List Char :=
  let digits := nptr.takeWhile (isDigitOf base)
  (digits.foldl (fun value c => base * value + digitValue c) 0, nptr.dropWhile (isDigitOf base))

/-- `strtoul` with base 0, on a text that begins with a digit: a number in hexadecimal
behind `0x`, in octal behind `0`, and else in decimal. -/
def strtoul : List Char → Nat × List Char
  | '0' :: x :: c :: rest =>
    if (x = 'x' ∨ x = 'X') ∧ isDigitOf 16 c = true then readDigits 16 (c :: rest) else readDigits 8 ('0' :: x :: c :: rest)
  | '0' :: rest => readDigits 8 ('0' :: rest)
  | nptr => readDigits 10 nptr

/-- A text without NUL. -/
def Plain (formatted : List Char) : Prop := NUL ∉ formatted

theorem Plain.append {front back : List Char} (hfront : Plain front) (hback : Plain back) :
    Plain (front ++ back) := by
  intro hmem
  rcases List.mem_append.mp hmem with h | h
  · exact hfront h
  · exact hback h

theorem Plain.cons {c : Char} {formatted : List Char} (hc : NUL ≠ c) (h : Plain formatted) :
    Plain (c :: formatted) := by
  intro hmem
  rcases List.mem_cons.mp hmem with h' | h'
  · exact hc h'
  · exact h h'

theorem cString_append_NUL {formatted : List Char} (h : Plain formatted) :
    cString (formatted ++ [NUL]) = formatted := by
  have hall : ∀ c ∈ formatted, decide (c ≠ NUL) = true := by
    intro c hc
    exact decide_eq_true fun heq => h (heq ▸ hc)
  rw [cString, List.takeWhile_append_of_pos hall]
  simp

theorem cString_eq {formatted : List Char} (h : Plain formatted) : cString formatted = formatted := by
  refine List.takeWhile_eq_self_iff.mpr fun c hc => ?_
  exact decide_eq_true fun heq => h (heq ▸ hc)

/-- A text that fits with its NUL is written whole. -/
theorem cString_snprintf {size : Nat} {formatted : List Char} (h : Plain formatted)
    (hfits : formatted.length < size) : cString (snprintf size formatted) = formatted := by
  have hwhole : formatted.take (size - 1) = formatted := List.take_of_length_le (by omega)
  rw [snprintf, hwhole, cString_append_NUL h]

theorem isDigit_of_mem_decimal {n : Nat} {c : Char} (hc : c ∈ decimal n) : c.isDigit = true :=
  Nat.isDigit_of_mem_toDigits (by omega) (by omega) hc

theorem plain_decimal (n : Nat) : Plain (decimal n) := by
  intro hmem
  exact absurd (isDigit_of_mem_decimal hmem) (by decide)

theorem plain_decimalInt (i : Int) : Plain (decimalInt i) := by
  cases i with
  | ofNat n => exact plain_decimal n
  | negSucc n => exact (plain_decimal (n + 1)).cons (by decide)

/-- The text of a number has as many characters as the number needs digits. -/
theorem length_decimal_le {n k : Nat} (hk : 0 < k) (hn : n < 10 ^ k) : (decimal n).length ≤ k :=
  (Nat.length_toDigits_le_iff (by omega) hk).mpr hn

theorem length_decimalInt_le {i : Int} {k : Nat} (hk : 0 < k) (hi : i.natAbs < 10 ^ k) :
    (decimalInt i).length ≤ k + 1 := by
  cases i with
  | ofNat n =>
    have hlength : (decimal n).length ≤ k := length_decimal_le hk hi
    change (decimal n).length ≤ k + 1
    omega
  | negSucc n =>
    have hlength : (decimal (n + 1)).length ≤ k := length_decimal_le hk hi
    change (decimal (n + 1)).length + 1 ≤ k + 1
    omega

/-- The digits of a number give the number back. -/
theorem decimal_injective : Function.Injective decimal := by
  intro m n heq
  have hread := congrArg (Nat.ofDigitChars 10 · 0) heq
  simpa only [decimal, Nat.ofDigitChars_ten_toDigits] using hread

theorem digitValue_lt_ten {c : Char} (hc : c.isDigit = true) : digitValue c < 10 := by
  rw [digitValue, if_pos hc]
  simp only [Char.isDigit, Bool.and_eq_true, decide_eq_true_eq] at hc
  have hlast : c.toNat ≤ '9'.toNat := hc.2
  have hnine : '9'.toNat - '0'.toNat < 10 := by decide
  omega

/-- The decimal digits in front of other characters are read as the number that they make. -/
theorem readDigits_decimal {n : Nat} {rest : List Char} (hrest : ∀ c ∈ rest.head?, c.isAlphanum = false) :
    readDigits 10 (decimal n ++ rest) = (n, rest) := by
  have hdigits : ∀ c ∈ decimal n, isDigitOf 10 c = true := by
    intro c hc
    have hdigit := isDigit_of_mem_decimal hc
    simp [isDigitOf, Char.isAlphanum, hdigit, digitValue_lt_ten hdigit]
  have hstops : ∀ c ∈ rest.head?, isDigitOf 10 c = false := by
    intro c hc
    simp [isDigitOf, hrest c hc]
  have htake : rest.takeWhile (isDigitOf 10) = [] := by
    cases rest with
    | nil => rfl
    | cons c rest => simp [hstops c rfl]
  have hdrop : rest.dropWhile (isDigitOf 10) = rest := by
    cases rest with
    | nil => rfl
    | cons c rest => simp [hstops c rfl]
  have hvalue (digits : List Char) (hall : ∀ c ∈ digits, c.isDigit = true) (value : Nat) :
      digits.foldl (fun value c => 10 * value + digitValue c) value = Nat.ofDigitChars 10 digits value := by
    induction digits generalizing value with
    | nil => rfl
    | cons c digits ih =>
      rw [List.foldl_cons, Nat.ofDigitChars_cons, digitValue, if_pos (hall c List.mem_cons_self)]
      exact ih (fun d hd => hall d (List.mem_cons_of_mem _ hd)) _
  rw [readDigits, List.takeWhile_append_of_pos hdigits, List.dropWhile_append_of_pos hdigits, htake, hdrop,
    List.append_nil, hvalue _ (fun c hc => isDigit_of_mem_decimal hc), decimal, Nat.ofDigitChars_ten_toDigits]

/-- Only zero begins with a zero. -/
theorem head_decimal {n : Nat} (hn : 0 < n) : (decimal n).head? ≠ some '0' := by
  induction n using Nat.strongRecOn with
  | ind n ih =>
    rw [decimal, Nat.toDigits_eq_if (by omega)]
    split
    · next hsmall =>
      intro hhead
      have hdigit := Option.some.inj hhead
      have hvalue := Nat.toNat_digitChar_sub_48_of_lt_ten hsmall
      rw [hdigit] at hvalue
      exact absurd hvalue.symm (Nat.ne_of_gt hn)
    · next hlarge =>
      have hfront := ih (n / 10) (by omega) (by omega)
      obtain ⟨c, digits, hdigits⟩ :=
        List.exists_cons_of_ne_nil (Nat.toDigits_ne_nil : Nat.toDigits 10 (n / 10) ≠ [])
      rw [decimal, hdigits] at hfront
      rw [hdigits]
      exact hfront

/-- `strtoul` reads a decimal number back. -/
theorem strtoul_decimal {n : Nat} {rest : List Char} (hrest : ∀ c ∈ rest.head?, c.isAlphanum = false) :
    strtoul (decimal n ++ rest) = (n, rest) := by
  cases n with
  | zero =>
    have hoctal : readDigits 8 ('0' :: rest) = (0, rest) := by
      cases rest with
      | nil => rfl
      | cons c rest =>
        have hstop : isDigitOf 8 c = false := by simp [isDigitOf, hrest c rfl]
        have hzero : isDigitOf 8 '0' = true := by decide
        simp [readDigits, hstop, hzero, digitValue]
    obtain _ | ⟨x, _ | ⟨c, rest⟩⟩ := rest
    · exact hoctal
    · exact hoctal
    · have hx : ¬ ((x = 'x' ∨ x = 'X') ∧ isDigitOf 16 c = true) := by
        rintro ⟨rfl | rfl, _⟩
        · exact absurd (hrest 'x' rfl) (by decide)
        · exact absurd (hrest 'X' rfl) (by decide)
      change (if _ then _ else _) = _
      rw [if_neg hx]
      exact hoctal
  | succ n =>
    have hhead := head_decimal (Nat.succ_pos n)
    have hread := readDigits_decimal (n := n + 1) hrest
    obtain ⟨c, digits, hdecimal⟩ := List.exists_cons_of_ne_nil (Nat.toDigits_ne_nil : Nat.toDigits 10 (n + 1) ≠ [])
    rw [decimal, hdecimal] at hhead hread ⊢
    unfold strtoul
    split
    · next heq => exact absurd (congrArg List.head? heq) (by simpa using hhead)
    · next heq => exact absurd (congrArg List.head? heq) (by simpa using hhead)
    · exact hread

/-- A minus sign is no digit. -/
theorem minus_cons_ne_decimal (front : List Char) (n : Nat) : '-' :: front ≠ decimal n := by
  intro heq
  have hmem : '-' ∈ decimal n := heq ▸ List.mem_cons_self
  exact absurd (isDigit_of_mem_decimal hmem) (by decide)

theorem decimalInt_injective : Function.Injective decimalInt := by
  intro i j heq
  cases i with
  | ofNat m =>
    cases j with
    | ofNat n => exact congrArg Int.ofNat (decimal_injective heq)
    | negSucc n => exact absurd heq.symm (minus_cons_ne_decimal _ m)
  | negSucc m =>
    cases j with
    | ofNat n => exact absurd heq (minus_cons_ne_decimal _ n)
    | negSucc n =>
      have hnumbers := decimal_injective (List.cons.inj heq).2
      exact congrArg Int.negSucc (Nat.succ.inj hnumbers)

end text
