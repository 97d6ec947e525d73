import CloudAlert.Text.Width

/-!
# Numerals

`atoi` and `atof` read the front of any text. `IsIntNumeral` and `IsDecimalNumeral` are
the texts that they read to the end, and `intValue` is the integer an integer numeral
denotes. `%d` prints a numeral of its argument.

`strtod` is the reader of the client, with the forms that `atof` leaves out and with the
place where it stops. It consumes no white space after the first (`strtod_consumes`).
-/

namespace CloudAlert

/-! ## Integers -/

instance (s : Bytes) : Decidable (∀ b ∈ s, isDigit b) := List.decidableBAll _ _

/-- An optional sign and at least one digit. -/
def IsIntNumeral (s : Bytes) : Prop :=
  (takeSign s).2 ≠ [] ∧ ∀ b ∈ (takeSign s).2, isDigit b

instance (s : Bytes) : Decidable (IsIntNumeral s) := inferInstanceAs (Decidable (_ ∧ _))

/-- The integer a numeral denotes. -/
def intValue (s : Bytes) : ℤ :=
  if (takeSign s).1 then -decimal (takeSign s).2 else decimal (takeSign s).2

theorem takeSign_of_digit {b : UInt8} {s : Bytes} (h : isDigit b) :
    takeSign (b :: s) = (false, b :: s) := by
  unfold takeSign
  split
  · rename_i heq
    obtain ⟨rfl, -⟩ := List.cons.inj heq
    exact absurd h (by decide)
  · rename_i heq
    obtain ⟨rfl, -⟩ := List.cons.inj heq
    exact absurd h (by decide)
  · rfl

theorem eq_takeSign (s : Bytes) :
    s = (takeSign s).2 ∨ ∃ b, (b = 45 ∨ b = 43) ∧ s = b :: (takeSign s).2 := by
  unfold takeSign
  split
  · exact .inr ⟨45, .inl rfl, rfl⟩
  · exact .inr ⟨43, .inr rfl, rfl⟩
  · exact .inl rfl

theorem not_isSpace_of_isDigit {b : UInt8} (h : isDigit b) : isSpace b = false := by
  simp only [isDigit, Bool.and_eq_true, decide_eq_true_eq, UInt8.le_iff_toNat_le] at h
  have hb : b ≠ 32 := by
    rintro rfl
    exact absurd h.1 (by decide)
  have hb' : ¬ b ≤ 13 := by
    rw [UInt8.le_iff_toNat_le]
    exact fun hle => absurd (h.1.trans hle) (by decide)
  simp [isSpace, hb, hb']

/-- The bytes of a numeral are not white space. -/
theorem IsIntNumeral.mem {s : Bytes} (h : IsIntNumeral s) {b : UInt8} (hb : b ∈ s) :
    b ≠ 0 ∧ isSpace b = false := by
  have hdigit : ∀ b, isDigit b → b ≠ 0 ∧ isSpace b = false := fun b hb =>
    ⟨(plain_of_isDigit hb).1, not_isSpace_of_isDigit hb⟩
  rcases eq_takeSign s with hs | ⟨sign, hsign, hs⟩
  · exact hdigit b (h.2 b (hs ▸ hb))
  · rw [hs, List.mem_cons] at hb
    rcases hb with rfl | hb
    · rcases hsign with rfl | rfl <;> decide
    · exact hdigit b (h.2 b hb)

theorem IsIntNumeral.isToken {s : Bytes} (h : IsIntNumeral s) : IsToken s := by
  refine ⟨?_, fun b hb => (h.mem hb).2⟩
  rintro rfl
  exact h.1 rfl

/-- `atoi` reads a numeral to its end and saturates. -/
theorem atoi_of_numeral {s : Bytes} (h : IsIntNumeral s) :
    atoi s = max (min (intValue s) 2147483647) (-2147483648) := by
  have hcstr : (cstr s).val = s := (cstr_val_eq_iff s).mpr fun hnul => (h.mem hnul).1 rfl
  have hspace : s.dropWhile isSpace = s := by
    cases s with
    | nil => rfl
    | cons b rest => exact List.dropWhile_cons_of_neg (by simp [h.mem List.mem_cons_self])
  have hdigits : (takeSign s).2.takeWhile isDigit = (takeSign s).2 :=
    List.takeWhile_eq_self_iff.mpr h.2
  unfold atoi intValue
  rw [hcstr, hspace]
  dsimp only
  rw [hdigits]
  split <;> omega

/-! ## Decimal fractions -/

/-- Nothing, or the exponent of a decimal numeral. -/
def IsExponent : Bytes → Prop
  | [] => True
  | e :: s => (e = 101 ∨ e = 69) ∧ IsIntNumeral s

instance (s : Bytes) : Decidable (IsExponent s) :=
  match s with
  | [] => inferInstanceAs (Decidable True)
  | _ :: _ => inferInstanceAs (Decidable (_ ∧ _))

/-- An optional sign, digits with an optional point, and an optional exponent. -/
def IsDecimalNumeral (s : Bytes) : Prop :=
  ((takeSign s).2.takeWhile isDigit ≠ [] ∨
    (takeFraction ((takeSign s).2.dropWhile isDigit)).1 ≠ []) ∧
  IsExponent (takeFraction ((takeSign s).2.dropWhile isDigit)).2

instance (s : Bytes) : Decidable (IsDecimalNumeral s) :=
  inferInstanceAs (Decidable (_ ∧ _))

example : IsDecimalNumeral (ascii "-35.5e2") ∧ ¬ IsDecimalNumeral (ascii "35.5x") := by
  decide

/-! ## Printed integers -/

theorem decimal_append_one (s : Bytes) (b : UInt8) :
    decimal (s ++ [b]) = 10 * decimal s + (b.toNat - 48) := by
  simp [decimal]

theorem decimal_printed {digits : List ℕ} (h : ∀ d ∈ digits, d < 10) :
    decimal (digits.reverse.map fun d => UInt8.ofNat (48 + d)) =
    Nat.ofDigits 10 digits := by
  induction digits with
  | nil => rfl
  | cons d rest ih =>
      obtain ⟨hd, hrest⟩ := List.forall_mem_cons.mp h
      have hbyte : (UInt8.ofNat (48 + d)).toNat - 48 = d := by
        rw [UInt8.toNat_ofNat']
        omega
      rw [List.reverse_cons, List.map_append, List.map_singleton,
        decimal_append_one, hbyte, ih hrest, Nat.ofDigits_cons]
      exact Nat.add_comm _ _

theorem decimal_fmtNat (n : ℕ) : decimal (fmtNat n) = n := by
  unfold fmtNat
  split
  · rename_i hn
    rw [hn]
    rfl
  · rw [decimal_printed fun d => Nat.digits_lt_base (by decide), Nat.ofDigits_digits]

theorem fmtNat_ne_nil (n : ℕ) : fmtNat n ≠ [] := by
  refine List.ne_nil_of_length_pos ?_
  rw [fmtNat_length]
  exact Nat.succ_pos _

theorem takeSign_fmtNat (n : ℕ) : takeSign (fmtNat n) = (false, fmtNat n) := by
  cases hn : fmtNat n with
  | nil => exact absurd hn (fmtNat_ne_nil n)
  | cons b rest =>
      exact takeSign_of_digit (isDigit_of_mem_fmtNat (hn ▸ List.mem_cons_self))

theorem takeSign_fmtInt (n : ℤ) :
    takeSign (fmtInt n) = (decide (n < 0), fmtNat n.natAbs) := by
  unfold fmtInt
  split
  · rename_i hneg
    rw [decide_eq_true hneg]
    rfl
  · rename_i hneg
    rw [decide_eq_false hneg, takeSign_fmtNat]

theorem isIntNumeral_fmtInt (n : ℤ) : IsIntNumeral (fmtInt n) := by
  rw [IsIntNumeral, takeSign_fmtInt]
  exact ⟨fmtNat_ne_nil _, fun b => isDigit_of_mem_fmtNat⟩

theorem isToken_fmtInt (n : ℤ) : IsToken (fmtInt n) := (isIntNumeral_fmtInt n).isToken

theorem intValue_fmtInt (n : ℤ) : intValue (fmtInt n) = n := by
  rw [intValue, takeSign_fmtInt, decimal_fmtNat]
  by_cases hneg : n < 0
  · rw [if_pos (decide_eq_true hneg)]
    omega
  · rw [if_neg (by simpa using hneg)]
    omega

theorem fmtInt_injective : Function.Injective fmtInt := fun m n h => by
  rw [← intValue_fmtInt m, h, intValue_fmtInt]

/-! ## `strtod` -/

/-- A number that `strtod` reads. -/
inductive Reading where
  | finite (neg : Bool) (magnitude : ℚ)
  | infinite (neg : Bool)
  | nan
deriving DecidableEq

/-- The number, where it is one. -/
def Reading.value : Reading → Option ℚ
  | .finite neg magnitude => some (if neg then -magnitude else magnitude)
  | _ => none

/-- `value <= 0.0`. -/
def Reading.nonpositive : Reading → Bool
  | .finite neg magnitude => neg || magnitude = 0
  | .infinite neg => neg
  | .nan => false

def lower (b : UInt8) : UInt8 := if 65 ≤ b ∧ b ≤ 90 then b + 32 else b

/-- What follows the word at the front of a text, whatever the case of its letters. -/
def takeWord (word s : Bytes) : Option Bytes :=
  if (s.take word.length).map lower = word then some (s.drop word.length) else none

def isHexDigit (b : UInt8) : Bool := isDigit b || 97 ≤ lower b && lower b ≤ 102

/-- The number a run of hexadecimal digits denotes. -/
def hexadecimal (digits : Bytes) : ℕ :=
  digits.foldl (fun n d =>
    16 * n + if isDigit d then d.toNat - 48 else (lower d).toNat - 87) 0

/-- The exponent part of a numeral after the letter `mark`, and what follows it. -/
def readExponent (mark : UInt8) : Bytes → ℤ × Bytes
  | e :: s =>
      let (neg, t) := takeSign s
      if lower e = mark ∧ t.takeWhile isDigit ≠ [] then
        let n : ℤ := decimal (t.takeWhile isDigit)
        (if neg then -n else n, t.dropWhile isDigit)
      else (0, e :: s)
  | [] => (0, [])

/-- A fraction part in the given digits, and what follows it. -/
def readFraction (digit : UInt8 → Bool) : Bytes → Bytes × Bytes
  | 46 :: s => (s.takeWhile digit, s.dropWhile digit)
  | s => ([], s)

/-- A numeral in the given digits with an exponent after `mark`. -/
def readNumeral (digit : UInt8 → Bool) (mark : UInt8)
    (value : Bytes → ℕ → ℤ → ℚ) (neg : Bool) (s : Bytes) : Option (Reading × Bytes) :=
  let whole := s.takeWhile digit
  let (frac, t) := readFraction digit (s.dropWhile digit)
  if whole = [] ∧ frac = [] then none
  else
    let (e, rest) := readExponent mark t
    some (.finite neg (value (whole ++ frac) frac.length e), rest)

def isWordByte (b : UInt8) : Bool := isDigit b || 97 ≤ lower b && lower b ≤ 122 || b == 95

/-- The parenthesis that may follow `nan`. -/
def dropPayload : Bytes → Bytes
  | 40 :: s =>
      match s.dropWhile isWordByte with
      | 41 :: rest => rest
      | _ => 40 :: s
  | s => s

/-- The forms of a number, after its sign. -/
def readUnsigned (neg : Bool) (s : Bytes) : Option (Reading × Bytes) :=
  match takeWord (ascii "infinity") s, takeWord (ascii "inf") s,
    takeWord (ascii "nan") s with
  | some rest, _, _ => some (.infinite neg, rest)
  | none, some rest, _ => some (.infinite neg, rest)
  | none, none, some rest => some (.nan, dropPayload rest)
  | none, none, none =>
      match (takeWord (ascii "0x") s).bind (readNumeral isHexDigit 112
        (fun digits frac e => hexadecimal digits * 2 ^ (e - 4 * frac)) neg) with
      | some out => some out
      | none => readNumeral isDigit 101
          (fun digits frac e => decimal digits * 10 ^ (e - frac)) neg s

/-- `strtod`: the number it reads and the text at `end`, the whole text where it reads
none. -/
def strtod (s : Bytes) : Reading × Bytes :=
  let s := (cstr s).val
  let (neg, t) := takeSign (s.dropWhile isSpace)
  (readUnsigned neg t).getD (.finite false 0, s)

/-- `atof` gives the number that `strtod` reads, as it does for every text that is read as
a decimal numeral. -/
def ReadsDecimal (s : Bytes) : Prop := (strtod s).1.value = some (atof s)

instance (s : Bytes) : Decidable (ReadsDecimal s) := inferInstanceAs (Decidable (_ = _))

example : strtod (ascii "-0x1.8p3 ") = (.finite true 12, ascii " ") := by decide +kernel

/-! ## What `strtod` consumes -/

/-- The reader goes from `s` to `rest` over bytes that are not white space. -/
def Consumes (s rest : Bytes) : Prop :=
  ∃ used, s = used ++ rest ∧ ∀ b ∈ used, isSpace b = false

theorem Consumes.refl (s : Bytes) : Consumes s s := ⟨[], rfl, List.forall_mem_nil _⟩

theorem Consumes.trans {s t u : Bytes} (h : Consumes s t) (h' : Consumes t u) :
    Consumes s u := by
  obtain ⟨used, rfl, hused⟩ := h
  obtain ⟨used', rfl, hused'⟩ := h'
  exact ⟨used ++ used', (List.append_assoc _ _ _).symm,
    List.forall_mem_append.mpr ⟨hused, hused'⟩⟩

theorem Consumes.cons {b : UInt8} {s rest : Bytes} (hb : isSpace b = false)
    (h : Consumes s rest) : Consumes (b :: s) rest := by
  obtain ⟨used, rfl, hused⟩ := h
  exact ⟨b :: used, rfl, List.forall_mem_cons.mpr ⟨hb, hused⟩⟩

theorem consumes_dropWhile {p : UInt8 → Bool}
    (h : ∀ b, p b → isSpace b = false) (s : Bytes) : Consumes s (s.dropWhile p) :=
  ⟨s.takeWhile p, List.takeWhile_append_dropWhile.symm, fun b hb =>
    h b (List.mem_takeWhile_imp hb)⟩

theorem consumes_takeSign (s : Bytes) : Consumes s (takeSign s).2 := by
  rcases eq_takeSign s with hs | ⟨sign, hsign, hs⟩
  · rw [← hs]
    exact .refl s
  · nth_rewrite 1 [hs]
    refine .cons ?_ (.refl _)
    rcases hsign with rfl | rfl <;> decide

theorem lower_of_isSpace {b : UInt8} (h : isSpace b) : lower b = b := by
  refine if_neg fun hletter => ?_
  simp only [isSpace, Bool.or_eq_true, Bool.and_eq_true, decide_eq_true_eq, beq_iff_eq,
    UInt8.le_iff_toNat_le] at h hletter
  rcases h with rfl | h
  · exact absurd hletter.1 (by decide)
  · exact absurd (hletter.1.trans h.2) (by decide)

theorem not_isSpace_of_letter {b : UInt8} (h : 97 ≤ lower b) : isSpace b = false := by
  by_contra hspace
  have hspace := Bool.eq_true_of_not_eq_false hspace
  rw [lower_of_isSpace hspace] at h
  simp only [isSpace, Bool.or_eq_true, Bool.and_eq_true, decide_eq_true_eq, beq_iff_eq,
    UInt8.le_iff_toNat_le] at h hspace
  rcases hspace with rfl | hspace
  · exact absurd h (by decide)
  · exact absurd (h.trans hspace.2) (by decide)

theorem not_isSpace_of_isHexDigit {b : UInt8} (h : isHexDigit b) : isSpace b = false := by
  rcases (Bool.or_eq_true _ _).mp h with h | h
  · exact not_isSpace_of_isDigit h
  · exact not_isSpace_of_letter (of_decide_eq_true ((Bool.and_eq_true _ _).mp h).1)

theorem not_isSpace_of_isWordByte {b : UInt8} (h : isWordByte b) : isSpace b = false := by
  rcases (Bool.or_eq_true _ _).mp h with h | h
  · rcases (Bool.or_eq_true _ _).mp h with h | h
    · exact not_isSpace_of_isDigit h
    · exact not_isSpace_of_letter (of_decide_eq_true ((Bool.and_eq_true _ _).mp h).1)
  · obtain rfl := eq_of_beq h
    decide

theorem consumes_takeWord {word s rest : Bytes} (hword : word.all fun b => !isSpace b)
    (h : takeWord word s = some rest) : Consumes s rest := by
  obtain ⟨htake, hrest⟩ := Option.ite_none_right_eq_some.mp h
  obtain rfl := Option.some.inj hrest
  refine ⟨s.take word.length, (List.take_append_drop _ _).symm, fun b hb => ?_⟩
  by_contra hspace
  have hspace := Bool.eq_true_of_not_eq_false hspace
  have hmem : b ∈ word := by
    rw [← htake, ← lower_of_isSpace hspace]
    exact List.mem_map_of_mem hb
  have hnone := List.all_eq_true.mp hword b hmem
  rw [hspace] at hnone
  exact Bool.false_ne_true hnone

theorem consumes_readExponent {mark : UInt8}
    (hmark : mark = 101 ∨ mark = 112) (s : Bytes) :
    Consumes s (readExponent mark s).2 := by
  cases s with
  | nil => exact .refl []
  | cons e t =>
      rw [readExponent]
      split
      · rename_i neg t' hsign
        split
        · rename_i he
          have hspace : isSpace e = false := by
            by_contra hspace
            have hspace := Bool.eq_true_of_not_eq_false hspace
            rw [lower_of_isSpace hspace] at he
            rcases hmark with rfl | rfl <;> rw [he.1] at hspace <;>
              exact absurd hspace (by decide)
          have hrest : t' = (takeSign t).2 := (congrArg Prod.snd hsign).symm
          rw [hrest]
          exact .cons hspace ((consumes_takeSign t).trans
            (consumes_dropWhile (fun _ => not_isSpace_of_isDigit) _))
        · exact .refl _

theorem consumes_readFraction {digit : UInt8 → Bool}
    (h : ∀ b, digit b → isSpace b = false)
    (s : Bytes) : Consumes s (readFraction digit s).2 := by
  unfold readFraction
  split
  · exact .cons (by decide) (consumes_dropWhile h _)
  · exact .refl _

theorem consumes_readNumeral {digit : UInt8 → Bool} (h : ∀ b, digit b → isSpace b = false)
    {mark : UInt8} (hmark : mark = 101 ∨ mark = 112)
    {value : Bytes → ℕ → ℤ → ℚ} {neg : Bool} {s : Bytes} {out : Reading × Bytes}
    (hout : readNumeral digit mark value neg s = some out) : Consumes s out.2 := by
  unfold readNumeral at hout
  dsimp only at hout
  obtain ⟨-, hout⟩ := Option.ite_none_left_eq_some.mp hout
  obtain rfl := Option.some.inj hout
  exact ((consumes_dropWhile h s).trans (consumes_readFraction h _)).trans
    (consumes_readExponent hmark _)

theorem consumes_dropPayload (s : Bytes) : Consumes s (dropPayload s) := by
  unfold dropPayload
  split
  · split
    · rename_i t _ rest hrest
      refine .cons (by decide)
        ((consumes_dropWhile (fun _ => not_isSpace_of_isWordByte) t).trans ?_)
      rw [hrest]
      exact .cons (by decide) (.refl rest)
    · exact .refl _
  · exact .refl _

theorem consumes_readUnsigned {neg : Bool} {s : Bytes} {out : Reading × Bytes}
    (h : readUnsigned neg s = some out) : Consumes s out.2 := by
  unfold readUnsigned at h
  split at h
  · rename_i rest hword
    obtain rfl := Option.some.inj h
    exact consumes_takeWord (by decide) hword
  · rename_i rest _ hword
    obtain rfl := Option.some.inj h
    exact consumes_takeWord (by decide) hword
  · rename_i rest _ _ hword
    obtain rfl := Option.some.inj h
    exact (consumes_takeWord (by decide) hword).trans (consumes_dropPayload rest)
  · split at h
    · rename_i out' hhex
      obtain rfl := Option.some.inj h
      obtain ⟨t, hword, hnumeral⟩ := Option.bind_eq_some_iff.mp hhex
      exact (consumes_takeWord (by decide) hword).trans
        (consumes_readNumeral (fun _ => not_isSpace_of_isHexDigit) (.inr rfl) hnumeral)
    · exact consumes_readNumeral (fun _ => not_isSpace_of_isDigit) (.inl rfl) h

theorem dropWhile_isSpace {s : Bytes} (h : ∀ b ∈ s.head?, isSpace b = false) :
    s.dropWhile isSpace = s := by
  cases s with
  | nil => rfl
  | cons b rest =>
      refine List.dropWhile_cons_of_neg ?_
      rw [h b rfl]
      exact Bool.false_ne_true

/-- A text without white space in front that `strtod` reads to its end has none at all. -/
theorem noSpace_of_strtod {s : Bytes}
    (hfront : ∀ b ∈ (cstr s).val.head?, isSpace b = false)
    (h : (strtod s).2 = []) : ∀ b ∈ (cstr s).val, isSpace b = false := by
  unfold strtod at h
  dsimp only at h
  rw [dropWhile_isSpace hfront] at h
  cases hread : readUnsigned (takeSign (cstr s).val).1 (takeSign (cstr s).val).2 with
  | none =>
      rw [hread] at h
      rw [show (cstr s).val = [] from h]
      exact List.forall_mem_nil _
  | some out =>
      rw [hread] at h
      obtain ⟨used, hused, hnone⟩ :=
        (consumes_takeSign _).trans (consumes_readUnsigned hread)
      rw [show out.2 = [] from h, List.append_nil] at hused
      rw [hused]
      exact hnone

/-! ## Printed prices -/

/-- The number of hundredths that `%.2f` prints. -/
def hundredths (x : ℚ) : ℕ := roundHalfEven (|x| * 100)

/-- What `%.2f` prints of them after the sign. -/
def priceDigits (n : ℕ) : Bytes := fmtNat (n / 100) ++ 46 :: pad2 (n % 100)

theorem fmtPrice_eq (x : ℚ) :
    fmtPrice x = (if x < 0 then [45] else []) ++ priceDigits (hundredths x) :=
  List.append_assoc _ _ _

theorem digit_or_point {n : ℕ} {b : UInt8} (hb : b ∈ priceDigits n) :
    isDigit b ∨ b = 46 := by
  rcases List.mem_append.mp hb with hb | hb
  · exact .inl (isDigit_of_mem_fmtNat hb)
  · rcases List.mem_cons.mp hb with rfl | hb
    · exact .inr rfl
    · exact .inl (isDigit_of_mem_pad2 hb)

theorem isToken_fmtPrice (x : ℚ) : IsToken (fmtPrice x) := by
  constructor
  · refine List.ne_nil_of_length_pos ?_
    rw [fmtPrice_length]
    exact Nat.succ_pos _
  · rw [fmtPrice_eq]
    refine List.forall_mem_append.mpr ⟨?_, fun b hb => ?_⟩
    · split
      · exact List.forall_mem_singleton.mpr (by decide)
      · exact List.forall_mem_nil _
    · rcases digit_or_point hb with hb | rfl
      · exact not_isSpace_of_isDigit hb
      · decide

theorem takeSign_fmtPrice (x : ℚ) :
    takeSign (fmtPrice x) = (decide (x < 0), priceDigits (hundredths x)) := by
  have hfront :
      takeSign (priceDigits (hundredths x)) = (false, priceDigits (hundredths x)) := by
    unfold priceDigits
    cases hprinted : fmtNat (hundredths x / 100) with
    | nil => exact absurd hprinted (fmtNat_ne_nil _)
    | cons b rest =>
        exact takeSign_of_digit (isDigit_of_mem_fmtNat (hprinted ▸ List.mem_cons_self))
  rw [fmtPrice_eq]
  split
  · rename_i hneg
    rw [decide_eq_true hneg]
    rfl
  · rename_i hneg
    rw [decide_eq_false hneg, List.nil_append, hfront]

theorem decimal_append_pad2 (s : Bytes) {m : ℕ} (hm : m < 100) :
    decimal (s ++ pad2 m) = 100 * decimal s + m := by
  have hdigit : ∀ d < 10, (UInt8.ofNat (48 + d)).toNat - 48 = d := by
    intro d hd
    rw [UInt8.toNat_ofNat']
    omega
  have hsplit : s ++ pad2 m =
      s ++ [UInt8.ofNat (48 + m / 10 % 10)] ++ [UInt8.ofNat (48 + m % 10)] := by
    rw [List.append_assoc]
    rfl
  rw [hsplit, decimal_append_one, decimal_append_one, hdigit _ (Nat.mod_lt _ (by decide)),
    hdigit _ (Nat.mod_lt _ (by decide))]
  omega

theorem takeWhile_digits {s : Bytes} (h : ∀ b ∈ s, isDigit b) (t : Bytes) :
    (s ++ 46 :: t).takeWhile isDigit = s ∧
    (s ++ 46 :: t).dropWhile isDigit = 46 :: t := by
  constructor
  · rw [List.takeWhile_append_of_pos h, List.takeWhile_cons_of_neg (by decide),
      List.append_nil]
  · rw [List.dropWhile_append_of_pos h, List.dropWhile_cons_of_neg (by decide)]

/-- A word is not at the front of a text that lacks one of its letters. -/
theorem takeWord_eq_none {word s : Bytes} {c : UInt8} (hc : c ∈ word)
    (h : ∀ b ∈ s, lower b ≠ c) : takeWord word s = none := by
  refine if_neg fun htake => ?_
  rw [← htake] at hc
  obtain ⟨b, hb, hlower⟩ := List.mem_map.mp hc
  exact h b (List.mem_of_mem_take hb) hlower

theorem lower_ne_of_isDigit {b c : UInt8} (hb : isDigit b) (hc : 97 ≤ c) :
    lower b ≠ c := by
  simp only [isDigit, Bool.and_eq_true, decide_eq_true_eq, UInt8.le_iff_toNat_le] at hb
  have hupper : ¬ (65 ≤ b ∧ b ≤ 90) := by
    rintro ⟨h, -⟩
    rw [UInt8.le_iff_toNat_le] at h
    exact absurd (h.trans hb.2) (by decide)
  rw [lower, if_neg hupper]
  rintro rfl
  rw [UInt8.le_iff_toNat_le] at hc
  exact absurd (hc.trans hb.2) (by decide)

theorem decimal_hundredths (n : ℕ) :
    decimal (fmtNat (n / 100) ++ pad2 (n % 100)) = n := by
  rw [decimal_append_pad2 _ (Nat.mod_lt _ (by decide)), decimal_fmtNat, Nat.div_add_mod]

theorem scale_pad2 (x : ℚ) (m : ℕ) : x * 10 ^ ((0 : ℤ) - (pad2 m).length) = x / 100 := by
  rw [show ((0 : ℤ) - (pad2 m).length) = -2 from rfl, zpow_neg, div_eq_mul_inv]
  norm_num

theorem pad2_runs (m : ℕ) :
    (pad2 m).takeWhile isDigit = pad2 m ∧ (pad2 m).dropWhile isDigit = [] := by
  have hdigits : ∀ b ∈ pad2 m, isDigit b := fun _ => isDigit_of_mem_pad2
  exact ⟨List.takeWhile_eq_self_iff.mpr hdigits, List.dropWhile_eq_nil_iff.mpr hdigits⟩

theorem readUnsigned_priceDigits (neg : Bool) (n : ℕ) :
    readUnsigned neg (priceDigits n) = some (.finite neg (n / 100), []) := by
  have hletters : ∀ c : UInt8, 97 ≤ c → ∀ b ∈ priceDigits n, lower b ≠ c := by
    intro c hc b hb
    rcases digit_or_point hb with hb | rfl
    · exact lower_ne_of_isDigit hb hc
    · rintro rfl
      exact absurd hc (by decide)
  have hnumeral : readNumeral isDigit 101
      (fun digits frac e => (decimal digits : ℚ) * 10 ^ (e - frac)) neg (priceDigits n) =
        some (.finite neg (n / 100), []) := by
    have hpoint :=
      takeWhile_digits (s := fmtNat (n / 100)) (fun _ => isDigit_of_mem_fmtNat)
      (pad2 (n % 100))
    unfold readNumeral priceDigits
    dsimp only
    rw [hpoint.1, hpoint.2, readFraction, (pad2_runs _).1, (pad2_runs _).2,
      if_neg fun h => List.cons_ne_nil _ _ h.2]
    dsimp only [readExponent]
    rw [decimal_hundredths, scale_pad2]
  unfold readUnsigned
  rw [takeWord_eq_none (c := 110) (by decide) (hletters 110 (by decide)),
    takeWord_eq_none (c := 110) (by decide) (hletters 110 (by decide)),
    takeWord_eq_none (c := 110) (by decide) (hletters 110 (by decide)),
    takeWord_eq_none (c := 120) (by decide) (hletters 120 (by decide))]
  exact hnumeral

/-- `strtod` reads the number that was printed. -/
theorem strtod_fmtPrice (x : ℚ) :
    strtod (fmtPrice x) = (.finite (decide (x < 0)) (hundredths x / 100), []) := by
  have hfront : ∀ b ∈ (fmtPrice x).head?, isSpace b = false := fun b hb =>
    (isToken_fmtPrice x).2 b (List.mem_of_mem_head? hb)
  unfold strtod
  dsimp only
  rw [cstr_of_plain (plain_fmtPrice x), dropWhile_isSpace hfront, takeSign_fmtPrice]
  dsimp only
  rw [readUnsigned_priceDigits]
  rfl

theorem atof_fmtPrice {x : ℚ} (h : 0 ≤ x) : atof (fmtPrice x) = hundredths x / 100 := by
  have hfront : ∀ b ∈ (fmtPrice x).head?, isSpace b = false := fun b hb =>
    (isToken_fmtPrice x).2 b (List.mem_of_mem_head? hb)
  have hpoint := takeWhile_digits (s := fmtNat (hundredths x / 100))
    (fun _ => isDigit_of_mem_fmtNat) (pad2 (hundredths x % 100))
  unfold atof
  rw [cstr_of_plain (plain_fmtPrice x), dropWhile_isSpace hfront, takeSign_fmtPrice,
    decide_eq_false (not_lt.mpr h)]
  unfold priceDigits
  dsimp only
  rw [hpoint.1, hpoint.2, takeFraction, (pad2_runs _).1, (pad2_runs _).2,
    if_neg fun h => List.cons_ne_nil _ _ h.2]
  dsimp only [takeExponent]
  rw [decimal_hundredths, scale_pad2]
  rfl

theorem roundHalfEven_natCast (n : ℕ) : roundHalfEven n = n := by
  simp [roundHalfEven]

theorem abs_roundHalfEven_sub {q : ℚ} (hq : 0 ≤ q) :
    |(roundHalfEven q : ℚ) - q| ≤ 1 / 2 := by
  have hbelow := Nat.floor_le hq
  have habove := Nat.lt_floor_add_one q
  rw [← Int.floor_toNat] at hbelow habove
  unfold roundHalfEven
  dsimp only
  split_ifs <;> push_cast <;> rw [abs_le] <;> constructor <;> linarith

theorem hundredths_div (n : ℕ) : hundredths (n / 100 : ℚ) = n := by
  have hnonneg : (0 : ℚ) ≤ n / 100 := by positivity
  rw [hundredths, abs_of_nonneg hnonneg, div_mul_cancel₀ _ (by norm_num),
    roundHalfEven_natCast]

theorem fmtPrice_hundredths (n : ℕ) : fmtPrice (n / 100) = priceDigits n := by
  have hnonneg : (0 : ℚ) ≤ n / 100 := by positivity
  rw [fmtPrice_eq, if_neg (not_lt.mpr hnonneg), hundredths_div, List.nil_append]

/-- Printing loses nothing of a whole number of hundredths, and of no other price. -/
theorem hundredths_eq_iff (x : ℚ) : (hundredths x : ℚ) / 100 = x ↔ ∃ n :
    ℕ, x = n / 100 := by
  constructor
  · intro h
    exact ⟨hundredths x, h.symm⟩
  · rintro ⟨n, rfl⟩
    rw [hundredths_div]

end CloudAlert
