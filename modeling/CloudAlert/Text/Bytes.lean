import Mathlib.Data.List.TakeWhile

/-!
# Byte strings and C strings

A `std::string` is a list of bytes and may contain NUL bytes. What goes through
`c_str()` into `sqlite3_bind_text` with length -1, and what comes back from
`sqlite3_column_text`, ends at the first NUL byte: it is a `Text`, a byte
string that has none. `cstr` is the conversion, and it is the identity exactly
on the byte strings that are texts already.

`splitLine` is the tokenizer of the session: the maximal runs of bytes that are
not white space in the C locale.
-/

namespace CloudAlert

/-- A `std::string`. -/
abbrev Bytes := List UInt8

/-- The bytes of a string literal of the source. -/
def ascii (s : String) : Bytes := s.toList.map fun c => UInt8.ofNat c.toNat

/-- A byte string without NUL bytes: the value of a `TEXT` column. -/
def Text := {b : Bytes // 0 ∉ b}

instance : DecidableEq Text := inferInstanceAs (DecidableEq {b : Bytes // 0 ∉ b})

instance : Coe Text Bytes := ⟨Subtype.val⟩

/-- The C string of `b`: the bytes before its first NUL byte. -/
def cstr (b : Bytes) : Text :=
  ⟨b.takeWhile (· ≠ 0), fun h => by simpa using List.mem_takeWhile_imp h⟩

@[simp] theorem cstr_val (t : Text) : cstr t.val = t := by
  apply Subtype.ext
  change t.val.takeWhile (· ≠ 0) = t.val
  rw [List.takeWhile_eq_self_iff]
  intro x hx
  have hne : x ≠ 0 := fun h => t.property (h ▸ hx)
  simpa using hne

/-- The conversion loses nothing exactly when there is no NUL byte. -/
theorem cstr_val_eq_iff (b : Bytes) : (cstr b).val = b ↔ 0 ∉ b := by
  constructor
  · intro h
    rw [← h]
    exact (cstr b).property
  · intro h
    exact congrArg Subtype.val (cstr_val ⟨b, h⟩)

/-- The empty text, the default of the `email` and `password` columns. -/
def Text.empty : Text := ⟨[], List.not_mem_nil⟩

theorem Text.ne_empty {t : Text} (h : t.val ≠ []) : t ≠ Text.empty := fun heq =>
  h (congrArg Subtype.val heq)

/-- `isspace` in the C locale: space, `\t`, `\n`, `\v`, `\f` and `\r`. -/
def isSpace (b : UInt8) : Bool := b == 32 || (9 ≤ b && b ≤ 13)

/-- `SplitLine`: the tokens `iss >> tok` reads from the line. -/
def splitLine (line : Bytes) : List Bytes :=
  (line.splitOnP isSpace).filter (· ≠ [])

theorem ne_nil_of_mem_splitLine {line tok : Bytes} (h : tok ∈ splitLine line) :
    tok ≠ [] := by
  simpa using (List.mem_filter.mp h).2

/-- A token: a non-empty run of bytes without white space. -/
def IsToken (tok : Bytes) : Prop := tok ≠ [] ∧ ∀ b ∈ tok, isSpace b = false

instance (tok : Bytes) : Decidable (∀ b ∈ tok, isSpace b = false) :=
  List.decidableBAll _ _

instance (tok : Bytes) : Decidable (IsToken tok) := inferInstanceAs (Decidable (_ ∧ _))

theorem isToken_of_mem_splitLine {line tok : Bytes} (h : tok ∈ splitLine line) :
    IsToken tok := by
  refine ⟨ne_nil_of_mem_splitLine h, ?_⟩
  replace h := (List.mem_filter.mp h).1
  induction line generalizing tok with
  | nil => simp_all
  | cons b line ih =>
      obtain ⟨head, tail, hsplit⟩ :=
        List.exists_cons_of_ne_nil (List.splitOnP_ne_nil isSpace line)
      rw [List.splitOnP_cons_eq_if_modifyHead] at h
      rw [hsplit] at ih h
      split at h
      · rcases List.mem_cons.mp h with rfl | h
        · simp
        · exact ih h
      · rename_i hb
        rcases List.mem_cons.mp h with rfl | h
        · simpa [hb] using ih List.mem_cons_self
        · exact ih (List.mem_cons_of_mem _ h)

/-- The tokens hold the bytes of the line that are not white space. -/
theorem flatten_splitLine (line : Bytes) :
    (splitLine line).flatten = line.filter (!isSpace ·) := by
  refine List.flatten_filter_ne_nil.trans ?_
  induction line with
  | nil => simp
  | cons b line ih =>
      obtain ⟨head, tail, hsplit⟩ :=
        List.exists_cons_of_ne_nil (List.splitOnP_ne_nil isSpace line)
      rw [hsplit, List.flatten_cons] at ih
      rw [List.splitOnP_cons_eq_if_modifyHead, hsplit]
      split
      · rename_i hb
        simpa [hb] using ih
      · rename_i hb
        simpa [hb] using ih

theorem splitLine_token_append {tok : Bytes} (h : IsToken tok) (rest : Bytes) :
    splitLine (tok ++ 32 :: rest) = tok :: splitLine rest := by
  unfold splitLine
  rw [List.splitOnP_append_cons_of_forall_mem h.2 32 rfl]
  exact List.filter_cons_of_pos (decide_eq_true h.1)

theorem splitLine_token {tok : Bytes} (h : IsToken tok) : splitLine tok = [tok] := by
  unfold splitLine
  rw [List.splitOnP_eq_singleton h.2]
  exact List.filter_cons_of_pos (decide_eq_true h.1)

/-- White space between two texts separates their tokens. -/
theorem splitLine_append {sep : UInt8} (h : isSpace sep) (s t : Bytes) :
    splitLine (s ++ sep :: t) = splitLine s ++ splitLine t := by
  unfold splitLine
  rw [List.splitOnP_append_cons s t h, List.filter_append]

theorem splitLine_ne_nil {s : Bytes} {b : UInt8} (hb : b ∈ s) (h : isSpace b = false) :
    splitLine s ≠ [] := by
  induction s with
  | nil => cases hb
  | cons c s ih =>
      by_cases hc : isSpace c
      · have hmem : b ∈ s := by
          refine (List.mem_cons.mp hb).resolve_left ?_
          rintro rfl
          rw [h] at hc
          cases hc
        have hskip : splitLine (c :: s) = splitLine s := splitLine_append hc [] s
        rw [hskip]
        exact ih hmem
      · obtain ⟨head, tail, hsplit⟩ :=
          List.exists_cons_of_ne_nil (List.splitOnP_ne_nil isSpace s)
        unfold splitLine
        rw [List.splitOnP_cons_eq_if_modifyHead, if_neg hc, hsplit, List.modifyHead_cons,
          List.filter_cons_of_pos (by simp)]
        exact List.cons_ne_nil _ _

/-- The part of the line before its first space, by which `Dispatch` selects
the handler. -/
def commandWord (line : Bytes) : Bytes := line.takeWhile (· ≠ 32)

example : splitLine (ascii " LOGIN\tu  p ") = [ascii "LOGIN", ascii "u", ascii "p"] := by
  decide

end CloudAlert
