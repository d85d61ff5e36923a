import Mathlib.Data.Nat.Digits.Defs
import Mathlib.Data.BitVec
import Mathlib.Data.List.TakeWhile

/-! Character classes and numbers of the C library, in the C locale. A string is
a list of characters; a null character ends a number like any other character
that is not a digit. -/
namespace CStrings

def isSpace (c : Char) : Bool :=
  c == ' ' || c == '\t' || c == '\n' || c == '\x0b' || c == '\x0c' || c == '\r'

/-- The value of a digit or a letter; everything else is a digit in no base. -/
def digitValue (c : Char) : Nat :=
  if '0' ≤ c ∧ c ≤ '9' then c.toNat - '0'.toNat
  else if 'a' ≤ c ∧ c ≤ 'z' then c.toNat - 'a'.toNat + 10
  else if 'A' ≤ c ∧ c ≤ 'Z' then c.toNat - 'A'.toNat + 10
  else 36

def isDigitOf (base : Nat) (c : Char) : Bool := decide (digitValue c < base)

/-- The number that digits spell. -/
def numeral (base : Nat) (cs : List Char) : Nat := Nat.ofDigits base (cs.map digitValue).reverse

/-! ### `strtoull` and the functions over it -/

inductive ConversionError where
  | invalidArgument | outOfRange
  deriving DecidableEq, Repr

/-- `0x` counts only in front of a digit. -/
def hasHexPrefix : List Char → Bool
  | z :: x :: c :: _ => z == '0' && (x == 'x' || x == 'X') && isDigitOf 16 c
  | _ => false

/-- The base, and the text without a prefix. Base 0 means to look at the text. -/
def withBase (base : Nat) (cs : List Char) : Nat × List Char :=
  if base = 0 then
    if hasHexPrefix cs then (16, cs.drop 2)
    else if cs.head? = some '0' then (8, cs)
    else (10, cs)
  else if base = 16 ∧ hasHexPrefix cs = true then (16, cs.drop 2)
  else (base, cs)

/-- Whether there is a minus sign, and the text without a sign. -/
def withSign (cs : List Char) : Bool × List Char :=
  if cs.head? = some '-' then (true, cs.tail)
  else if cs.head? = some '+' then (false, cs.tail)
  else (false, cs)

/-- The longest number at the beginning, after white space. -/
def scan (base : Nat) (cs : List Char) : Option (Bool × Nat) :=
  let (negative, cs) := withSign (cs.dropWhile isSpace)
  let (base, cs) := withBase base cs
  if cs.takeWhile (isDigitOf base) = [] then none
  else some (negative, numeral base (cs.takeWhile (isDigitOf base)))

/-- A minus sign negates in the type of the result. -/
def stoull (base : Nat) (cs : List Char) : Except ConversionError (BitVec 64) :=
  match scan base cs with
  | none => .error .invalidArgument
  | some (negative, n) =>
    if 2 ^ 64 ≤ n then .error .outOfRange
    else .ok (if negative then -BitVec.ofNat 64 n else BitVec.ofNat 64 n)

/-- `unsigned long` has 64 bits as well. -/
def stoul (cs : List Char) : Except ConversionError (BitVec 64) := stoull 10 cs

def stoi (cs : List Char) : Except ConversionError Int :=
  match scan 10 cs with
  | none => .error .invalidArgument
  | some (negative, n) =>
    let value : Int := if negative then -n else n
    if value < -2 ^ 31 ∨ 2 ^ 31 ≤ value then .error .outOfRange else .ok value

/-! ### Unsigned literals -/

/-- A whole text that is an unsigned integer literal of C, with its value. -/
inductive Literal : List Char → Nat → Prop where
  | decimal {c : Char} {cs : List Char} : c ≠ '0' → (∀ d ∈ c :: cs, isDigitOf 10 d = true) →
      Literal (c :: cs) (numeral 10 (c :: cs))
  | octal {cs : List Char} : (∀ d ∈ cs, isDigitOf 8 d = true) → Literal ('0' :: cs) (numeral 8 cs)
  | hexadecimal {x : Char} {cs : List Char} : x = 'x' ∨ x = 'X' → cs ≠ [] →
      (∀ d ∈ cs, isDigitOf 16 d = true) → Literal ('0' :: x :: cs) (numeral 16 cs)

theorem hasHexPrefix_cons (z x c : Char) (cs : List Char) :
    hasHexPrefix (z :: x :: c :: cs) =
      (z == '0' && (x == 'x' || x == 'X') && isDigitOf 16 c) := rfl

@[simp] theorem numeral_nil (base : Nat) : numeral base [] = 0 := Nat.ofDigits_nil

theorem numeral_append (base : Nat) (cs ds : List Char) :
    numeral base (cs ++ ds) = numeral base ds + base ^ ds.length * numeral base cs := by
  unfold numeral
  rw [List.map_append, List.reverse_append, Nat.ofDigits_append, List.length_reverse,
    List.length_map]

theorem numeral_singleton (base : Nat) (c : Char) : numeral base [c] = digitValue c :=
  Nat.ofDigits_singleton

theorem numeral_cons (base : Nat) (c : Char) (cs : List Char) :
    numeral base (c :: cs) = numeral base cs + base ^ cs.length * digitValue c := by
  rw [← numeral_singleton base c]
  exact numeral_append base [c] cs

/-- A leading zero adds nothing. -/
theorem numeral_zero_cons (base : Nat) (cs : List Char) :
    numeral base ('0' :: cs) = numeral base cs := by
  rw [numeral_cons, show digitValue '0' = 0 by decide, Nat.mul_zero, Nat.add_zero]

theorem digitValue_digitChar : ∀ d < 16, digitValue (Nat.digitChar d) = d := by decide

/-- The usual numeral of a number spells it. -/
theorem numeral_toDigits {base : Nat} (hlow : 1 < base) (hhigh : base ≤ 16) (n : Nat) :
    numeral base (Nat.toDigits base n) = n := by
  induction n using Nat.strong_induction_on with
  | _ n ih =>
    by_cases hn : n < base
    · rw [Nat.toDigits_of_lt_base hn, numeral_singleton,
        digitValue_digitChar n (Nat.lt_of_lt_of_le hn hhigh)]
    · have hle : base ≤ n := Nat.le_of_not_lt hn
      have hpos : 0 < base := Nat.lt_trans Nat.zero_lt_one hlow
      have hdigit : n % base < 16 := Nat.lt_of_lt_of_le (Nat.mod_lt n hpos) hhigh
      rw [Nat.toDigits_of_base_le hlow hle, numeral_append, numeral_singleton,
        digitValue_digitChar _ hdigit, ih (n / base) (Nat.div_lt_self (by omega) hlow),
        List.length_singleton, Nat.pow_one]
      exact Nat.mod_add_div n base

/-- It consists of digits. -/
theorem isDigitOf_of_mem_toDigits {base : Nat} (hlow : 1 < base) (hhigh : base ≤ 16) {n : Nat}
    {c : Char} (h : c ∈ Nat.toDigits base n) : isDigitOf base c = true := by
  have hdigit : ∀ d < base, isDigitOf base (Nat.digitChar d) = true := fun d hd =>
    decide_eq_true ((digitValue_digitChar d (Nat.lt_of_lt_of_le hd hhigh)).symm ▸ hd)
  induction n using Nat.strong_induction_on with
  | _ n ih =>
    by_cases hn : n < base
    · rw [Nat.toDigits_of_lt_base hn] at h
      cases List.mem_singleton.mp h
      exact hdigit n hn
    · rw [Nat.toDigits_of_base_le hlow (Nat.le_of_not_lt hn)] at h
      obtain h | h := List.mem_append.mp h
      · exact ih (n / base) (Nat.div_lt_self (by omega) hlow) h
      · cases List.mem_singleton.mp h
        exact hdigit _ (Nat.mod_lt n (by omega))

theorem digitValue_lt {base : Nat} {c : Char} (h : isDigitOf base c = true) :
    digitValue c < base := of_decide_eq_true h

/-- A numeral is smaller than the power of its length. -/
theorem numeral_lt {base : Nat} (hbase : 1 < base) {cs : List Char}
    (h : ∀ c ∈ cs, isDigitOf base c = true) : numeral base cs < base ^ cs.length := by
  have hlt := Nat.ofDigits_lt_base_pow_length (l := (cs.map digitValue).reverse) hbase (by
    intro d hd
    obtain ⟨c, hc, rfl⟩ := List.mem_map.mp (List.mem_reverse.mp hd)
    exact digitValue_lt (h c hc))
  rwa [List.length_reverse, List.length_map] at hlt

/-- A numeral is zero only if all its digits are. -/
theorem digitValue_eq_zero {base : Nat} (hbase : 0 < base) {cs : List Char}
    (h : numeral base cs = 0) : ∀ c ∈ cs, digitValue c = 0 := by
  induction cs with
  | nil => exact List.forall_mem_nil _
  | cons c cs ih =>
    rw [numeral_cons] at h
    obtain ⟨hrest, hhead⟩ := Nat.add_eq_zero_iff.mp h
    have hpower : base ^ cs.length ≠ 0 := Nat.pos_iff_ne_zero.mp (Nat.pow_pos hbase)
    exact List.forall_mem_cons.mpr
      ⟨(Nat.mul_eq_zero.mp hhead).resolve_left hpower, ih hrest⟩

/-- Digits are neither white space nor signs. -/
theorem plain_of_isDigitOf {c : Char} (h : isDigitOf 36 c = true) :
    isSpace c = false ∧ c ≠ '-' ∧ c ≠ '+' := by
  refine ⟨Bool.eq_false_iff.mpr fun hspace => ?_, ?_, ?_⟩
  · unfold isSpace at hspace
    simp only [Bool.or_eq_true, beq_iff_eq] at hspace
    obtain ((((rfl | rfl) | rfl) | rfl) | rfl) | rfl := hspace
    all_goals exact absurd h (by decide)
  · rintro rfl
    exact absurd h (by decide)
  · rintro rfl
    exact absurd h (by decide)

/-- A text that starts with a digit has neither white space nor a sign to skip. -/
theorem scan_of_digit {base : Nat} {c : Char} {cs : List Char} (h : isDigitOf 36 c = true) :
    scan base (c :: cs) =
      if (withBase base (c :: cs)).2.takeWhile (isDigitOf (withBase base (c :: cs)).1) = [] then
        none
      else some (false, numeral (withBase base (c :: cs)).1
        ((withBase base (c :: cs)).2.takeWhile (isDigitOf (withBase base (c :: cs)).1))) := by
  obtain ⟨hspace, hminus, hplus⟩ := plain_of_isDigitOf h
  have hdrop : (c :: cs).dropWhile isSpace = c :: cs := by
    rw [List.dropWhile_cons, hspace, if_neg nofun]
  have hsign : withSign (c :: cs) = (false, c :: cs) := by
    unfold withSign
    rw [List.head?_cons, if_neg fun heq => hminus (Option.some.inj heq),
      if_neg fun heq => hplus (Option.some.inj heq)]
  unfold scan
  rw [hdrop, hsign]

theorem isDigitOf_mono {base base' : Nat} {c : Char} (hle : base ≤ base')
    (h : isDigitOf base c = true) : isDigitOf base' c = true :=
  decide_eq_true (Nat.lt_of_lt_of_le (digitValue_lt h) hle)

theorem takeWhile_eq_self {base : Nat} {cs : List Char} (h : ∀ c ∈ cs, isDigitOf base c = true) :
    cs.takeWhile (isDigitOf base) = cs := List.takeWhile_eq_self_iff.mpr h

/-- What is taken of a text that goes on with a character that stops it. -/
theorem takeWhile_append_stop {p : Char → Bool} {cs rest : List Char}
    (h : ∀ c ∈ cs, p c = true) (hrest : ∀ c ∈ rest.head?, p c = false) :
    (cs ++ rest).takeWhile p = cs := by
  rw [List.takeWhile_append_of_pos h]
  cases rest with
  | nil => exact List.append_nil cs
  | cons d rest =>
    rw [List.takeWhile_cons_of_neg (by simp [hrest d rfl]), List.append_nil]

theorem dropWhile_append_stop {p : Char → Bool} {cs rest : List Char}
    (h : ∀ c ∈ cs, p c = true) (hrest : ∀ c ∈ rest.head?, p c = false) :
    (cs ++ rest).dropWhile p = rest := by
  rw [List.dropWhile_append_of_pos h]
  cases rest with
  | nil => rfl
  | cons d rest => rw [List.dropWhile_cons_of_neg (by simp [hrest d rfl])]

theorem scan_ten {cs : List Char} (hne : cs ≠ []) (h : ∀ c ∈ cs, isDigitOf 10 c = true) :
    scan 10 cs = some (false, numeral 10 cs) := by
  obtain ⟨c, cs, rfl⟩ := List.exists_cons_of_ne_nil hne
  rw [scan_of_digit (isDigitOf_mono (by decide) (h c List.mem_cons_self))]
  change (if (c :: cs).takeWhile (isDigitOf 10) = [] then none else
    some (false, numeral 10 ((c :: cs).takeWhile (isDigitOf 10)))) = _
  rw [takeWhile_eq_self h, if_neg hne]

theorem scan_zero_decimal {c : Char} {cs : List Char} (hc : c ≠ '0')
    (h : ∀ d ∈ c :: cs, isDigitOf 10 d = true) :
    scan 0 (c :: cs) = some (false, numeral 10 (c :: cs)) := by
  have hhex : hasHexPrefix (c :: cs) = false := by
    cases cs with
    | nil => rfl
    | cons x cs =>
      cases cs with
      | nil => rfl
      | cons d cs =>
        rw [hasHexPrefix_cons, beq_eq_false_iff_ne.mpr hc, Bool.false_and, Bool.false_and]
  have hbase : withBase 0 (c :: cs) = (10, c :: cs) := by
    unfold withBase
    rw [if_pos rfl, hhex, if_neg nofun, List.head?_cons,
      if_neg fun heq => hc (Option.some.inj heq)]
  rw [scan_of_digit (isDigitOf_mono (by decide) (h c List.mem_cons_self)), hbase]
  change (if (c :: cs).takeWhile (isDigitOf 10) = [] then none else some (false, numeral 10 _)) = _
  rw [takeWhile_eq_self h, if_neg (List.cons_ne_nil c cs)]

theorem scan_zero_hexadecimal {x : Char} {cs : List Char} (hx : x = 'x' ∨ x = 'X')
    (hne : cs ≠ []) (h : ∀ d ∈ cs, isDigitOf 16 d = true) :
    scan 0 ('0' :: x :: cs) = some (false, numeral 16 cs) := by
  obtain ⟨c, cs, rfl⟩ := List.exists_cons_of_ne_nil hne
  have hhex : hasHexPrefix ('0' :: x :: c :: cs) = true := by
    rw [hasHexPrefix_cons, h c List.mem_cons_self]
    obtain rfl | rfl := hx <;> rfl
  have hbase : withBase 0 ('0' :: x :: c :: cs) = (16, c :: cs) := by
    unfold withBase
    rw [if_pos rfl, if_pos hhex]
    rfl
  rw [scan_of_digit (by decide), hbase]
  change (if (c :: cs).takeWhile (isDigitOf 16) = [] then none else some (false, numeral 16 _)) = _
  rw [takeWhile_eq_self h, if_neg hne]

/-- After a leading zero the digits up to the first that is not octal count. -/
theorem scan_zero_octal {cs : List Char} (hhex : hasHexPrefix ('0' :: cs) = false) :
    scan 0 ('0' :: cs) = some (false, numeral 8 (cs.takeWhile (isDigitOf 8))) := by
  have hbase : withBase 0 ('0' :: cs) = (8, '0' :: cs) := by
    unfold withBase
    rw [if_pos rfl, hhex, if_neg nofun, if_pos (List.head?_cons ..)]
  have htake : ('0' :: cs).takeWhile (isDigitOf 8) = '0' :: cs.takeWhile (isDigitOf 8) :=
    List.takeWhile_cons_of_pos (by decide)
  rw [scan_of_digit (by decide), hbase]
  change (if ('0' :: cs).takeWhile (isDigitOf 8) = [] then none else
    some (false, numeral 8 (('0' :: cs).takeWhile (isDigitOf 8)))) = _
  rw [htake, if_neg (List.cons_ne_nil _ _), numeral_zero_cons]

/-- Octal digits after a zero are no hexadecimal prefix. -/
theorem hasHexPrefix_of_digits {cs : List Char} (h : ∀ d ∈ cs, isDigitOf 10 d = true) :
    hasHexPrefix ('0' :: cs) = false := by
  cases cs with
  | nil => rfl
  | cons x cs =>
    cases cs with
    | nil => rfl
    | cons c cs =>
      have hx : (x == 'x' || x == 'X') = false := by
        have hdigit := h x List.mem_cons_self
        refine Bool.eq_false_iff.mpr fun heq => ?_
        rw [Bool.or_eq_true, beq_iff_eq, beq_iff_eq] at heq
        obtain rfl | rfl := heq
        all_goals exact absurd hdigit (by decide)
      rw [hasHexPrefix_cons, hx, Bool.and_false, Bool.false_and]

theorem scan_of_literal {cs : List Char} {n : Nat} (h : Literal cs n) :
    scan 0 cs = some (false, n) := by
  cases h with
  | decimal hc hdigits => exact scan_zero_decimal hc hdigits
  | octal hdigits =>
    rw [scan_zero_octal (hasHexPrefix_of_digits fun d hd =>
      isDigitOf_mono (by decide) (hdigits d hd)), takeWhile_eq_self hdigits]
  | hexadecimal hx hne hdigits => exact scan_zero_hexadecimal hx hne hdigits

theorem numeral_replicate_zero (base n : Nat) : numeral base (List.replicate n '0') = 0 := by
  induction n with
  | zero => rfl
  | succ n ih => rw [List.replicate_succ, numeral_zero_cons, ih]

/-- Padding with zeros changes no number. -/
theorem numeral_leftpad (base n : Nat) (cs : List Char) :
    numeral base (cs.leftpad n '0') = numeral base cs := by
  unfold List.leftpad
  rw [numeral_append, numeral_replicate_zero, Nat.mul_zero, Nat.add_zero]

/-- A hexadecimal number ends at the first other character. -/
theorem scan_sixteen {cs rest : List Char} (hne : cs ≠ [])
    (h : ∀ c ∈ cs, isDigitOf 16 c = true) (hrest : ∀ c ∈ rest.head?, isDigitOf 16 c = false) :
    scan 16 ('0' :: 'x' :: (cs ++ rest)) = some (false, numeral 16 cs) := by
  obtain ⟨c, cs, rfl⟩ := List.exists_cons_of_ne_nil hne
  have hbase : withBase 16 ('0' :: 'x' :: ((c :: cs) ++ rest)) = (16, (c :: cs) ++ rest) := by
    have hhex : hasHexPrefix ('0' :: 'x' :: ((c :: cs) ++ rest)) = true := by
      rw [List.cons_append, hasHexPrefix_cons, h c List.mem_cons_self]
      rfl
    unfold withBase
    rw [if_neg (by decide), if_pos ⟨rfl, hhex⟩]
    rfl
  rw [scan_of_digit (by decide), hbase]
  dsimp only
  rw [takeWhile_append_stop h hrest, if_neg hne]

/-- An unsigned number that fits. -/
theorem stoull_of_scan {base : Nat} {cs : List Char} {n : Nat}
    (h : scan base cs = some (false, n)) :
    stoull base cs = if 2 ^ 64 ≤ n then .error .outOfRange else .ok (BitVec.ofNat 64 n) := by
  unfold stoull
  rw [h]
  rfl

theorem stoull_of_lt {base : Nat} {cs : List Char} {n : Nat}
    (h : scan base cs = some (false, n)) (hn : n < 2 ^ 64) :
    stoull base cs = .ok (BitVec.ofNat 64 n) := by
  rw [stoull_of_scan h, if_neg (Nat.not_le_of_lt hn)]

end CStrings
