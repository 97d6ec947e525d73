import CloudAlert.Text.Numerals

/-!
# Input checks of the client

`ValidateContract`, `ValidatePrice` and `ValidateTimeText` of the MFC client: each accepts
a text or shows a message. A text passes `ValidateTimeText` exactly if `%H:%M:%S` prints
it for some time of day.
-/

namespace CloudAlert

/-- `std::isalnum` in the "C" locale. -/
def isAlnum (b : UInt8) : Bool :=
  isDigit b || 65 ≤ b && b ≤ 90 || 97 ≤ b && b ≤ 122

/-- `CMainFrame::ValidateContract`. -/
def validateContract (contract : Bytes) : Except String Unit :=
  if contract = [] then .error "Please enter a contract code."
  else if contract.all fun b => isAlnum b || b == 95 || b == 45 then .ok ()
  else .error "Contract code can only contain letters, numbers, '_' or '-'."

/-- `CMainFrame::ValidatePrice`. -/
def validatePrice (price : Bytes) : Except String Unit :=
  if price = [] then .error "Please enter a trigger price."
  else
    let (value, rest) := strtod price
    if rest = (cstr price).val ∨ rest ≠ [] ∨ value.nonpositive then
      .error "Price must be a positive number."
    else .ok ()

/-- `CMainFrame::ValidateTimeText`. -/
def validateTimeText : Bytes → Except String Unit
  | [h₁, h₂, c₁, m₁, m₂, c₂, s₁, s₂] =>
      if c₁ ≠ 58 ∨ c₂ ≠ 58 ∨ ¬ [h₁, h₂, m₁, m₂, s₁, s₂].all isDigit then
        .error "Time must use HH:MM:SS format, for example 09:30:00."
      else if 23 < atoi [h₁, h₂] ∨ 59 < atoi [m₁, m₂] ∨ 59 < atoi [s₁, s₂] then
        .error "Time must be in the valid range 00:00:00 to 23:59:59."
      else .ok ()
  | _ => .error "Time must use HH:MM:SS format, for example 09:30:00."

/-! ## Times -/

theorem exists_of_isDigit {b : UInt8} (h : isDigit b) :
    ∃ d : Fin 10, b = UInt8.ofNat (48 + d) := by
  simp only [isDigit, Bool.and_eq_true, decide_eq_true_eq, UInt8.le_iff_toNat_le,
    UInt8.reduceToNat] at h
  refine ⟨⟨b.toNat - 48, by omega⟩, ?_⟩
  rw [Nat.add_sub_cancel' h.1, UInt8.ofNat_toNat]

/-- `atoi` undoes `%02d`. -/
theorem atoi_two_digits : ∀ d e : Fin 10,
    atoi [UInt8.ofNat (48 + d), UInt8.ofNat (48 + e)] = 10 * d + e ∧
      pad2 (10 * d + e) = [UInt8.ofNat (48 + d), UInt8.ofNat (48 + e)] := by
  decide +kernel

theorem pad2_of_digits {a b : UInt8} (ha : isDigit a) (hb : isDigit b) :
    ∃ n : ℕ, atoi [a, b] = n ∧ pad2 n = [a, b] := by
  obtain ⟨d, rfl⟩ := exists_of_isDigit ha
  obtain ⟨e, rfl⟩ := exists_of_isDigit hb
  obtain ⟨hread, hprint⟩ := atoi_two_digits d e
  exact ⟨10 * d + e, by rw [hread]; norm_cast, hprint⟩

theorem atoi_pad2 {n : ℕ} (h : n < 100) : atoi (pad2 n) = n := by
  have hread := (atoi_two_digits ⟨n / 10 % 10, Nat.mod_lt _ (by decide)⟩
    ⟨n % 10, Nat.mod_lt _ (by decide)⟩).1
  refine hread.trans ?_
  push_cast
  omega

theorem LocalTime.hms_val (t : LocalTime) :
    t.hms.val = pad2 t.hour ++ 58 :: pad2 t.minute ++ 58 :: pad2 t.second :=
  cstr_of_plain t.plain_hms_format

/-- The texts the check accepts are the times of day. -/
theorem validateTimeText_iff (s : Bytes) :
    validateTimeText s = .ok () ↔ ∃ t : LocalTime, t.hms.val = s := by
  constructor
  · intro h
    unfold validateTimeText at h
    split at h
    · rename_i h₁ h₂ c₁ m₁ m₂ c₂ s₁ s₂
      split at h
      · cases h
      · rename_i hformat
        split at h
        · cases h
        · rename_i hrange
          push Not at hformat hrange
          obtain ⟨rfl, rfl, hdigits⟩ := hformat
          simp only [List.all_eq_true, List.forall_mem_cons] at hdigits
          obtain ⟨hh₁, hh₂, hm₁, hm₂, hs₁, hs₂, -⟩ := hdigits
          obtain ⟨hour, hhour, hhour'⟩ := pad2_of_digits hh₁ hh₂
          obtain ⟨minute, hminute, hminute'⟩ := pad2_of_digits hm₁ hm₂
          obtain ⟨second, hsecond, hsecond'⟩ := pad2_of_digits hs₁ hs₂
          rw [hhour, hminute, hsecond] at hrange
          refine ⟨⟨0, 0, 0, ⟨hour, by omega⟩, ⟨minute, by omega⟩, ⟨second, by omega⟩⟩, ?_⟩
          rw [LocalTime.hms_val, hhour', hminute', hsecond']
          rfl
    · cases h
  · rintro ⟨t, rfl⟩
    have hhour := atoi_pad2 (t.hour.isLt.trans (by decide : 24 < 100))
    have hminute := atoi_pad2 (t.minute.isLt.trans (by decide : 60 < 100))
    have hsecond := atoi_pad2 (t.second.isLt.trans (by decide : 60 < 100))
    rw [t.hms_val, pad2, pad2, pad2]
    change (if (58 : UInt8) ≠ 58 ∨ (58 : UInt8) ≠ 58 ∨
      ¬ (pad2 t.hour ++ pad2 t.minute ++ pad2 t.second).all isDigit then _
      else if 23 < atoi (pad2 t.hour) ∨ 59 < atoi (pad2 t.minute) ∨
        59 < atoi (pad2 t.second)
      then _ else _) = _
    rw [hhour, hminute, hsecond, if_neg, if_neg]
    · have := t.hour.isLt
      have := t.minute.isLt
      have := t.second.isLt
      omega
    · rintro (h | h | h)
      · exact h rfl
      · exact h rfl
      · refine h (List.all_eq_true.mpr fun b hb => ?_)
        rcases List.mem_append.mp hb with hb | hb
        · rcases List.mem_append.mp hb with hb | hb
          · exact isDigit_of_mem_pad2 hb
          · exact isDigit_of_mem_pad2 hb
        · exact isDigit_of_mem_pad2 hb

/-! ## Tokens -/

theorem not_isSpace_of_le {b : UInt8} (h : 33 ≤ b) : isSpace b = false := by
  rw [UInt8.le_iff_toNat_le] at h
  have hblank : b ≠ 32 := by
    rintro rfl
    exact absurd h (by decide)
  have hcontrol : ¬ b ≤ 13 := by
    rw [UInt8.le_iff_toNat_le]
    exact fun hle => absurd (h.trans hle) (by decide)
  simp [isSpace, hblank, hcontrol]

theorem not_isSpace_of_isAlnum {b : UInt8} (h : isAlnum b) : isSpace b = false := by
  rcases (Bool.or_eq_true _ _).mp h with h | h
  · rcases (Bool.or_eq_true _ _).mp h with h | h
    · exact not_isSpace_of_isDigit h
    · have hletter := of_decide_eq_true ((Bool.and_eq_true _ _).mp h).1
      exact not_isSpace_of_le (UInt8.le_trans (by decide) hletter)
  · have hletter := of_decide_eq_true ((Bool.and_eq_true _ _).mp h).1
    exact not_isSpace_of_le (UInt8.le_trans (by decide) hletter)

theorem isToken_of_validateContract {s : Bytes} (h : validateContract s = .ok ()) :
    IsToken s := by
  unfold validateContract at h
  split at h
  · cases h
  · rename_i hne
    split at h
    · rename_i hall
      refine ⟨hne, fun b hb => ?_⟩
      rcases (Bool.or_eq_true _ _).mp (List.all_eq_true.mp hall b hb) with hb | hb
      · rcases (Bool.or_eq_true _ _).mp hb with hb | hb
        · exact not_isSpace_of_isAlnum hb
        · obtain rfl := eq_of_beq hb
          decide
      · obtain rfl := eq_of_beq hb
        decide
    · cases h

theorem LocalTime.isToken_hms (t : LocalTime) : IsToken t.hms.val := by
  have hpad : ∀ n, ∀ b ∈ pad2 n, isSpace b = false := fun n b hb =>
    not_isSpace_of_isDigit (isDigit_of_mem_pad2 hb)
  refine ⟨List.ne_nil_of_length_pos (by rw [t.hms_length]; decide), ?_⟩
  rw [t.hms_val]
  simp only [List.forall_mem_append, List.forall_mem_cons]
  exact ⟨⟨hpad _, by decide, hpad _⟩, by decide, hpad _⟩

theorem isToken_of_validateTimeText {s : Bytes} (h : validateTimeText s = .ok ()) :
    IsToken s := by
  obtain ⟨t, rfl⟩ := (validateTimeText_iff s).mp h
  exact t.isToken_hms

end CloudAlert
