import Mathlib.Data.Nat.Digits.Lemmas
import CloudAlert.Text.Format

/-!
# How long a printed number is

The width of what `%d`, `%.2f` and the two `strftime` formats print, and which bytes
occur in it: no NUL byte and no white space, so it survives `c_str()` and stays on its
line.
-/

namespace CloudAlert

/-- Decimal digits of `n`. -/
def natWidth (n : ℕ) : ℕ := Nat.log 10 n + 1

/-- The width of `%d`. -/
def intWidth (n : ℤ) : ℕ := (if n < 0 then 1 else 0) + natWidth n.natAbs

/-- The width of `%.2f`. -/
def priceWidth (x : ℚ) : ℕ :=
  (if x < 0 then 1 else 0) + natWidth (roundHalfEven (|x| * 100) / 100) + 3

/-- The width of a `%Y-%m-%d %H:%M:%S` stamp. -/
def stampWidth (t : LocalTime) : ℕ := natWidth t.year + 15

theorem fmtNat_length (n : ℕ) : (fmtNat n).length = natWidth n := by
  unfold fmtNat natWidth
  split
  · rename_i hzero
    rw [hzero, Nat.log_zero_right]
    rfl
  · rename_i hne
    rw [List.length_map, List.length_reverse, Nat.length_digits 10 n (by decide) hne]

theorem fmtInt_length (n : ℤ) : (fmtInt n).length = intWidth n := by
  unfold fmtInt intWidth
  split
  · rw [List.length_cons, fmtNat_length, Nat.add_comm]
  · rw [fmtNat_length, Nat.zero_add]

theorem fmtPrice_length (x : ℚ) : (fmtPrice x).length = priceWidth x := by
  unfold fmtPrice priceWidth
  have hpad : ∀ n, (46 :: pad2 n).length = 3 := fun _ => rfl
  rw [List.length_append, List.length_append, hpad, fmtNat_length]
  split <;> rfl

/-! ## The bytes of a printed number -/

theorem isDigit_ofNat {d : ℕ} (hd : d < 10) : isDigit (UInt8.ofNat (48 + d)) := by
  interval_cases d <;> rfl

theorem isDigit_of_mem_fmtNat {n : ℕ} {b : UInt8} (h : b ∈ fmtNat n) : isDigit b := by
  unfold fmtNat at h
  split at h
  · obtain rfl := List.mem_singleton.mp h
    rfl
  · obtain ⟨d, hd, rfl⟩ := List.mem_map.mp h
    exact isDigit_ofNat (Nat.digits_lt_base (by decide) (List.mem_reverse.mp hd))

theorem isDigit_of_mem_pad2 {n : ℕ} {b : UInt8} (h : b ∈ pad2 n) : isDigit b := by
  rcases List.mem_pair.mp h with rfl | rfl
  · exact isDigit_ofNat (Nat.mod_lt _ (by decide))
  · exact isDigit_ofNat (Nat.mod_lt _ (by decide))

/-- Bytes that a printed text may consist of: neither NUL nor a line break. -/
def Plain (b : UInt8) : Prop := b ≠ 0 ∧ b ≠ 10 ∧ b ≠ 13

instance (b : UInt8) : Decidable (Plain b) := inferInstanceAs (Decidable (_ ∧ _))

instance (s : Bytes) : Decidable (∀ b ∈ s, Plain b) := List.decidableBAll _ _

theorem plain_of_isDigit {b : UInt8} (h : isDigit b) : Plain b := by
  refine ⟨?_, ?_, ?_⟩ <;> rintro rfl <;> exact absurd h (by decide)

theorem plain_of_not_isSpace {b : UInt8} (h : isSpace b = false) (hnul : b ≠ 0) :
    Plain b := by
  refine ⟨hnul, ?_, ?_⟩ <;> rintro rfl <;> exact absurd h (by decide)

theorem plain_fmtNat (n : ℕ) : ∀ b ∈ fmtNat n, Plain b := fun _ h =>
  plain_of_isDigit (isDigit_of_mem_fmtNat h)

theorem plain_pad2 (n : ℕ) : ∀ b ∈ pad2 n, Plain b := fun _ h =>
  plain_of_isDigit (isDigit_of_mem_pad2 h)

theorem plain_fmtInt (n : ℤ) : ∀ b ∈ fmtInt n, Plain b := by
  unfold fmtInt
  split
  · exact List.forall_mem_cons.mpr ⟨by decide, plain_fmtNat _⟩
  · exact plain_fmtNat _

theorem plain_append {s t : Bytes} (hs : ∀ b ∈ s, Plain b) (ht : ∀ b ∈ t, Plain b) :
    ∀ b ∈ s ++ t, Plain b := List.forall_mem_append.mpr ⟨hs, ht⟩

theorem plain_fmtPrice (x : ℚ) : ∀ b ∈ fmtPrice x, Plain b := by
  unfold fmtPrice
  refine plain_append (plain_append ?_ (plain_fmtNat _))
    (List.forall_mem_cons.mpr ⟨by decide, plain_pad2 _⟩)
  split
  · exact List.forall_mem_singleton.mpr (by decide)
  · exact List.forall_mem_nil _

theorem cstr_of_plain {s : Bytes} (h : ∀ b ∈ s, Plain b) : (cstr s).val = s :=
  (cstr_val_eq_iff s).mpr fun hnul => (h 0 hnul).1 rfl

namespace LocalTime

variable (t : LocalTime)

theorem plain_hms_format :
    ∀ b ∈ pad2 t.hour ++ 58 :: pad2 t.minute ++ 58 :: pad2 t.second, Plain b :=
  plain_append
    (plain_append (plain_pad2 _) (List.forall_mem_cons.mpr ⟨by decide, plain_pad2 _⟩))
    (List.forall_mem_cons.mpr ⟨by decide, plain_pad2 _⟩)

theorem plain_hms : ∀ b ∈ t.hms.val, Plain b := by
  rw [hms, cstr_of_plain t.plain_hms_format]
  exact t.plain_hms_format

theorem hms_length : t.hms.val.length = 8 := by
  rw [hms, cstr_of_plain t.plain_hms_format]
  rfl

theorem plain_stamp_format :
    ∀ b ∈ fmtNat t.year ++ 45 :: pad2 (t.month.val + 1) ++ 45 :: pad2 (t.day.val + 1) ++
      32 :: t.hms.val, Plain b :=
  plain_append
    (plain_append
      (plain_append (plain_fmtNat _) (List.forall_mem_cons.mpr ⟨by decide, plain_pad2 _⟩))
      (List.forall_mem_cons.mpr ⟨by decide, plain_pad2 _⟩))
    (List.forall_mem_cons.mpr ⟨by decide, t.plain_hms⟩)

theorem plain_stamp : ∀ b ∈ t.stamp.val, Plain b := by
  rw [stamp, cstr_of_plain t.plain_stamp_format]
  exact t.plain_stamp_format

theorem stamp_length : t.stamp.val.length = stampWidth t := by
  have hpad : ∀ n, (45 :: pad2 n).length = 3 := fun _ => rfl
  rw [stamp, cstr_of_plain t.plain_stamp_format]
  simp only [List.length_append, fmtNat_length, hpad, List.length_cons, t.hms_length]
  rfl

end LocalTime

/-! ## Buffers -/

theorem snprintf_eq_none {size : ℕ} {text : Bytes} :
    snprintf size text = none ↔ size ≤ text.length := by
  unfold snprintf
  split
  · exact iff_of_false nofun (by omega)
  · exact iff_of_true rfl (by omega)

theorem snprintf_eq_some {size : ℕ} {text out : Bytes}
    (h : snprintf size text = some out) : out = text :=
  (Option.some.inj (Option.ite_none_right_eq_some.mp h).2).symm

end CloudAlert
