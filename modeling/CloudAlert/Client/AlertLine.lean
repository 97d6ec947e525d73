import CloudAlert.Client.Validate
import CloudAlert.Client.Wire
import CloudAlert.Session.Replies
import CloudAlert.Text.Numerals

/-!
# Lines about alerts

The client reads ALERT and TRIGGERED lines by the positions of their fields. All fields
the server prints are tokens, a time stamp is two of them, and an empty time is printed as
`-`, so every field is at its place (`lines_recovered`).
-/

namespace CloudAlert

/-! ## Reading in the client -/

/-- `Split` of the client. -/
def clientSplit (text : Bytes) : List Bytes := splitLine text

/-- `CMainFrame::StatusName`. -/
def statusName (s : Bytes) : Bytes :=
  if s = ascii "0" then ascii "Pending"
  else if s = ascii "1" then ascii "Triggered"
  else if s = ascii "2" then ascii "Deleted"
  else s

/-- A number in a stream with `std::fixed` and `std::setprecision(2)`. -/
def Reading.print : Reading → Bytes
  | .finite neg magnitude => (if neg then [45] else []) ++ fmtPrice magnitude
  | .infinite neg => (if neg then [45] else []) ++ ascii "inf"
  | .nan => ascii "nan"

/-- `CMainFrame::FormatPriceText`. -/
def formatPriceText (raw : Bytes) : Bytes :=
  if raw = [] ∨ raw = ascii "-" then ascii "-"
  else
    let (value, rest) := strtod raw
    if rest = (cstr raw).val ∨ rest ≠ [] then raw else value.print

/-- A row of the list of alerts. -/
structure AlertRow where
  id : Text
  type : Text
  contract : Text
  trigger : Text
  current : Text
  cond : Text
  time : Text
  status : Text
  created : Text
deriving DecidableEq

/-- `CMainFrame::AddAlertLine`: the row it inserts. -/
def addAlertLine (line : Bytes) : Option AlertRow :=
  match clientSplit line with
  | _ :: t₁ :: t₂ :: t₃ :: t₄ :: t₅ :: t₆ :: t₇ :: t₈ :: more =>
      some {
        id := cstr t₁
        type := cstr (if t₂ = ascii "0" then ascii "Price" else ascii "Time")
        contract := cstr t₃
        trigger := cstr (formatPriceText t₄)
        current := cstr (ascii "-")
        cond := cstr (if t₅ = ascii "1" then ascii "<=" else ascii ">=")
        time := cstr (if t₆ = ascii "-" then [] else t₆)
        status := cstr (statusName t₇)
        created := cstr (match more with
          | t₉ :: _ => t₈ ++ 32 :: t₉
          | [] => t₈) }
  | _ => none

/-- The message boxes of `CMainFrame::OnTriggered`. -/
inductive TriggeredMessage where
  | timeAlert (id contract triggerTime lastPrice timestamp : Text)
  | priceAlert (id contract cond triggerPrice lastPrice timestamp : Text)
  | brief (id contract lastPrice timestamp : Text)
  | whole (line : Text)
deriving DecidableEq

/-- The branches of `CMainFrame::OnTriggered`. -/
def triggeredMessage (line : Text) : TriggeredMessage :=
  match clientSplit line with
  | _ :: f₁ :: f₂ :: f₃ :: f₄ :: f₅ :: f₆ :: f₇ :: f₈ :: more =>
      let timestamp := more.foldl (fun text field => text ++ 32 :: field) f₈
      if atoi f₂ = alertTypeTime then
        .timeAlert (cstr f₁) (cstr f₃) (cstr f₇) (cstr (formatPriceText f₄))
          (cstr timestamp)
      else
        .priceAlert (cstr f₁) (cstr f₃)
          (cstr (if f₅ = ascii "1" then ascii "<=" else ascii ">="))
          (cstr (formatPriceText f₆)) (cstr (formatPriceText f₄)) (cstr timestamp)
  | _ :: f₁ :: f₂ :: f₃ :: f₄ :: f₅ :: more =>
      let timestamp := (f₅ :: more).foldl (fun text field => text ++ 32 :: field) f₄
      .brief (cstr f₁) (cstr f₂) (cstr (formatPriceText f₃)) (cstr timestamp)
  | _ => .whole line

/-- The texts of the message boxes, in GBK. -/
def TriggeredMessage.text : TriggeredMessage → Bytes
  | .timeAlert id contract triggerTime lastPrice timestamp =>
      [0xA1, 0xBE, 0xCA, 0xB1, 0xBC, 0xE4, 0xD4, 0xA4, 0xBE, 0xAF, 0xB4, 0xA5, 0xB7, 0xA2,
        0xA1, 0xBF, 10, 10] ++
      [0xD4, 0xA4, 0xBE, 0xAF, 73, 68, 0xA3, 0xBA] ++ id.val ++ [10] ++
      [0xBA, 0xCF, 0xD4, 0xBC, 0xA3, 0xBA] ++ contract.val ++ [10] ++
      [0xCC, 0xE1, 0xD0, 0xD1, 0xCA, 0xB1, 0xBC, 0xE4, 0xA3, 0xBA] ++
        triggerTime.val ++ [10] ++
      [0xB4, 0xA5, 0xB7, 0xA2, 0xCA, 0xB1, 0xD7, 0xEE, 0xD0, 0xC2, 0xBC,
        0xDB, 0xA3, 0xBA] ++
        lastPrice.val ++ [10] ++
      [0xB4, 0xA5, 0xB7, 0xA2, 0xCA, 0xB1, 0xBC, 0xE4, 0xA3, 0xBA] ++ timestamp.val ++
        [10, 10] ++ clickOk
  | .priceAlert id contract cond triggerPrice lastPrice timestamp =>
      [0xA1, 0xBE, 0xBC, 0xDB, 0xB8, 0xF1, 0xD4, 0xA4, 0xBE, 0xAF, 0xB4, 0xA5, 0xB7, 0xA2,
        0xA1, 0xBF, 10, 10] ++
      [0xD4, 0xA4, 0xBE, 0xAF, 73, 68, 0xA3, 0xBA] ++ id.val ++ [10] ++
      [0xBA, 0xCF, 0xD4, 0xBC, 0xA3, 0xBA] ++ contract.val ++ [10] ++
      [0xB4, 0xA5, 0xB7, 0xA2, 0xCC, 0xF5, 0xBC, 0xFE, 0xA3, 0xBA, 0xD7, 0xEE, 0xD0, 0xC2,
        0xBC, 0xDB, 32] ++ cond.val ++ [32] ++ triggerPrice.val ++ [10] ++
      [0xB4, 0xA5, 0xB7, 0xA2, 0xCA, 0xB1, 0xD7, 0xEE, 0xD0, 0xC2, 0xBC,
        0xDB, 0xA3, 0xBA] ++
        lastPrice.val ++ [10] ++
      [0xB4, 0xA5, 0xB7, 0xA2, 0xCA, 0xB1, 0xBC, 0xE4, 0xA3, 0xBA] ++ timestamp.val ++
        [10, 10] ++ clickOk
  | .brief id contract lastPrice timestamp =>
      [0xA1, 0xBE, 0xD4, 0xA4, 0xBE, 0xAF, 0xB4, 0xA5, 0xB7, 0xA2, 0xA1, 0xBF, 10, 10] ++
      [0xD4, 0xA4, 0xBE, 0xAF, 73, 68, 0xA3, 0xBA] ++ id.val ++ [10] ++
      [0xBA, 0xCF, 0xD4, 0xBC, 0xA3, 0xBA] ++ contract.val ++ [10] ++
      [0xB4, 0xA5, 0xB7, 0xA2, 0xCA, 0xB1, 0xD7, 0xEE, 0xD0, 0xC2, 0xBC,
        0xDB, 0xA3, 0xBA] ++
        lastPrice.val ++ [10] ++
      [0xB4, 0xA5, 0xB7, 0xA2, 0xCA, 0xB1, 0xBC, 0xE4, 0xA3, 0xBA] ++ timestamp.val ++
        [10, 10] ++ clickOk
  | .whole line =>
      [0xA1, 0xBE, 0xD4, 0xA4, 0xBE, 0xAF, 0xB4, 0xA5, 0xB7, 0xA2, 0xA1, 0xBF, 10, 10] ++
        line.val ++ [10, 10] ++ clickOk
where
  clickOk : Bytes :=
    [0xB5, 0xE3, 0xBB, 0xF7, 0xA1, 0xB0, 0xC8, 0xB7, 0xB6, 0xA8, 0xA1, 0xB1,
      0xBA, 0xF3, 0xBC, 0xCC, 0xD0, 0xF8, 0xB2, 0xD9, 0xD7, 0xF7, 0xA1, 0xA3]

/-- `CMainFrame::OnTriggered`: the text it shows. -/
def onTriggered (line : Text) : Bytes := (triggeredMessage line).text

/-! ## What the lines say -/

/-- `ALERT_STATUS` by the words of the list. -/
def statusText (status : ℤ) : Bytes :=
  if status = 0 then ascii "Pending"
  else if status = 1 then ascii "Triggered"
  else if status = 2 then ascii "Deleted"
  else fmtInt status

/-- The row that shows the alert. -/
def AlertRecord.row (r : AlertRecord) : AlertRow where
  id := cstr (fmtInt r.id)
  type := cstr (if r.alertType = alertTypePrice then ascii "Price" else ascii "Time")
  contract := r.contract
  trigger := cstr (fmtPrice r.triggerPrice)
  current := cstr (ascii "-")
  cond := cstr (conditionText r.condition)
  time := r.triggerTime
  status := cstr (statusText r.status)
  created := r.createdAt

/-- The message box that shows the triggered alert. -/
def AlertRecord.message (r : AlertRecord) (lastPrice : ℚ) (timestamp : Text) :
    TriggeredMessage :=
  if r.alertType = alertTypeTime then
    .timeAlert (cstr (fmtInt r.id)) r.contract (cstr (timeOrDash r.triggerTime))
      (cstr (fmtPrice lastPrice)) timestamp
  else
    .priceAlert (cstr (fmtInt r.id)) r.contract (cstr (conditionText r.condition))
      (cstr (fmtPrice r.triggerPrice)) (cstr (fmtPrice lastPrice)) timestamp

/-- The fields of an ALERT line at the positions the client reads. -/
structure ReadsAlert (fields : List Bytes) (r : AlertRecord) : Prop where
  id : fields[1]?.map intValue = some r.id
  alertType : fields[2]?.map intValue = some r.alertType
  contract : fields[3]? = some r.contract.val
  triggerPrice : fields[4]? = some (fmtPrice r.triggerPrice)
  condition : fields[5]?.map intValue = some r.condition
  triggerTime : fields[6]? = some (timeOrDash r.triggerTime)
  status : fields[7]?.map intValue = some r.status
  createdAt : unwords (fields.drop 8) = r.createdAt.val

/-- The fields of a TRIGGERED line at the positions the client reads. -/
structure ReadsTriggered (fields : List Bytes) (r : AlertRecord) (lastPrice : ℚ)
    (timestamp : Text) : Prop where
  branch : 9 ≤ fields.length
  id : fields[1]?.map intValue = some r.id
  alertType : fields[2]?.map intValue = some r.alertType
  contract : fields[3]? = some r.contract.val
  lastPrice : fields[4]? = some (fmtPrice lastPrice)
  condition : fields[5]?.map intValue = some r.condition
  triggerPrice : fields[6]? = some (fmtPrice r.triggerPrice)
  triggerTime : fields[7]? = some (timeOrDash r.triggerTime)
  timestamp : unwords (fields.drop 8) = timestamp.val

/-- A date and a time of day, with a blank between them. -/
def IsDateTime (t : Text) : Prop :=
  ∃ date time, IsToken date ∧ IsToken time ∧ t.val = unwords [date, time]

/-- The checks of the client hold of the alert. -/
structure WellFormed (r : AlertRecord) : Prop where
  contract : validateContract r.contract = .ok ()
  triggerTime : r.triggerTime = Text.empty ∨ validateTimeText r.triggerTime = .ok ()

/-- The texts of the alert are tokens; it may have no time. -/
structure TokenRow (r : AlertRecord) : Prop where
  contract : IsToken r.contract.val
  triggerTime : r.triggerTime = Text.empty ∨ IsToken r.triggerTime.val

/-- The row of the list for an alert whose texts are tokens: a time that is a dash is
shown like no time. -/
def AlertRecord.shown (r : AlertRecord) : AlertRow :=
  { r.row with
      time := if r.triggerTime.val = ascii "-" then Text.empty else r.triggerTime }

theorem LocalTime.isDateTime_stamp (now : LocalTime) : IsDateTime now.stamp := by
  refine ⟨fmtNat now.year ++ 45 :: pad2 (now.month.val + 1) ++
    45 :: pad2 (now.day.val + 1), now.hms.val, ⟨?_, ?_⟩, now.isToken_hms, ?_⟩
  · simp
  · have hpad : ∀ n, ∀ b ∈ pad2 n, isSpace b = false := fun n b hb =>
      not_isSpace_of_isDigit (isDigit_of_mem_pad2 hb)
    have hyear : ∀ b ∈ fmtNat now.year, isSpace b = false := fun b hb =>
      not_isSpace_of_isDigit (isDigit_of_mem_fmtNat hb)
    simp only [List.forall_mem_append, List.forall_mem_cons]
    exact ⟨⟨hyear, by decide, hpad _⟩, by decide, hpad _⟩
  · rw [LocalTime.stamp, cstr_of_plain now.plain_stamp_format, unwords_cons_cons,
      unwords_singleton]

/-! ## Fields -/

section

variable {r : AlertRecord}

theorem WellFormed.tokenRow (h : WellFormed r) : TokenRow r where
  contract := isToken_of_validateContract h.contract
  triggerTime := h.triggerTime.imp_right isToken_of_validateTimeText

/-- A time the check accepts is not the dash. -/
theorem WellFormed.shown_eq (h : WellFormed r) : r.shown = r.row := by
  have htime : r.triggerTime.val ≠ ascii "-" := by
    rcases h.triggerTime with hempty | hvalid
    · rw [hempty]
      decide
    · obtain ⟨t, ht⟩ := (validateTimeText_iff _).mp hvalid
      intro hdash
      have hlength := t.hms_length
      rw [ht, hdash] at hlength
      exact absurd hlength (by decide)
  rw [AlertRecord.shown, if_neg htime]
  rfl

theorem TokenRow.isToken_timeOrDash (h : TokenRow r) :
    IsToken (timeOrDash r.triggerTime) := by
  unfold timeOrDash
  split
  · decide
  · rename_i hne
    exact h.triggerTime.resolve_left hne

theorem cstr_timeOrDash (t : Text) :
    cstr (if timeOrDash t = ascii "-" then [] else timeOrDash t) =
      if t.val = ascii "-" then Text.empty else t := by
  by_cases hempty : t = Text.empty
  · subst hempty
    decide
  · rw [timeOrDash, if_neg hempty]
    split
    · rfl
    · exact cstr_val t

/-- The price is printed as it was read. -/
theorem formatPriceText_fmtPrice (x : ℚ) : formatPriceText (fmtPrice x) = fmtPrice x := by
  have hlength : 4 ≤ (fmtPrice x).length := by
    rw [fmtPrice_length, priceWidth, natWidth]
    omega
  have hother : ¬ (fmtPrice x = [] ∨ fmtPrice x = ascii "-") := by
    rintro (h | h)
    · rw [h] at hlength
      exact absurd hlength (by decide)
    · rw [h] at hlength
      exact absurd hlength (by decide)
  have hread : ¬ (([] : Bytes) = (cstr (fmtPrice x)).val ∨ ([] : Bytes) ≠ []) := by
    rw [cstr_of_plain (plain_fmtPrice x)]
    exact not_or.mpr ⟨fun h => hother (.inl h.symm), not_not.mpr rfl⟩
  unfold formatPriceText
  rw [if_neg hother, strtod_fmtPrice]
  dsimp only
  rw [if_neg hread, Reading.print, fmtPrice_hundredths, fmtPrice_eq]
  simp only [decide_eq_true_eq]

theorem fmtInt_eq_iff {n k : ℤ} {s : String} (h : ascii s = fmtInt k) :
    fmtInt n = ascii s ↔ n = k := by
  rw [h]
  exact fmtInt_injective.eq_iff

theorem statusName_fmtInt (status : ℤ) :
    statusName (fmtInt status) = statusText status := by
  have hzero : fmtInt status = ascii "0" ↔ status = 0 := fmtInt_eq_iff (by decide)
  have hone : fmtInt status = ascii "1" ↔ status = 1 := fmtInt_eq_iff (by decide)
  have htwo : fmtInt status = ascii "2" ↔ status = 2 := fmtInt_eq_iff (by decide)
  unfold statusName statusText
  simp only [hzero, hone, htwo]

theorem alertType_fmtInt (n : ℤ) : atoi (fmtInt n) = alertTypeTime ↔
    n = alertTypeTime := by
  rw [atoi_of_numeral (isIntNumeral_fmtInt n), intValue_fmtInt, alertTypeTime]
  omega

/-! ## Lines -/

theorem plain_of_isToken {w : Bytes} (h : IsToken w) (hnul : 0 ∉ w) : ∀ b ∈ w, Plain b :=
  fun b hb => plain_of_not_isSpace (h.2 b hb) fun heq => hnul (heq ▸ hb)

/-- A field of a printed line. -/
def IsField (w : Bytes) : Prop := IsToken w ∧ 0 ∉ w

/-- The client gets the line as it was printed, and takes it apart again. -/
theorem line_arrives {ws : List Bytes} (h : ∀ w ∈ ws, IsField w) (rest : Bytes) :
    clientRecvLine [] (unwords ws ++ 10 :: rest) = some (unwords ws, rest) ∧
      (cstr (unwords ws)).val = unwords ws ∧ clientSplit (unwords ws) = ws := by
  have hplain : ∀ b ∈ unwords ws, Plain b :=
    plain_unwords fun w hw => plain_of_isToken (h w hw).1 (h w hw).2
  refine ⟨?_, cstr_of_plain hplain, splitLine_unwords fun w hw => (h w hw).1⟩
  have hkept : dropCR (unwords ws) = unwords ws :=
    List.filter_eq_self.mpr fun b hb => decide_eq_true (hplain b hb).2.2
  rw [clientRecvLine_line (fun hmem => (hplain 10 hmem).2.1 rfl), hkept]
  rfl

theorem isField_fmtInt (n : ℤ) : IsField (fmtInt n) :=
  ⟨isToken_fmtInt n, fun hnul => (plain_fmtInt n 0 hnul).1 rfl⟩

theorem isField_fmtPrice (x : ℚ) : IsField (fmtPrice x) :=
  ⟨isToken_fmtPrice x, fun hnul => (plain_fmtPrice x 0 hnul).1 rfl⟩

theorem TokenRow.isField_contract (h : TokenRow r) : IsField r.contract.val :=
  ⟨h.contract, r.contract.property⟩

theorem TokenRow.isField_time (h : TokenRow r) : IsField (timeOrDash r.triggerTime) := by
  refine ⟨h.isToken_timeOrDash, ?_⟩
  unfold timeOrDash
  split
  · decide
  · exact r.triggerTime.property

theorem IsDateTime.fields {t : Text} (h : IsDateTime t) :
    ∃ date time, IsField date ∧ IsField time ∧ t.val = unwords [date, time] := by
  obtain ⟨date, time, hdate, htime, ht⟩ := h
  have hnul := t.property
  rw [ht, unwords_cons_cons, unwords_singleton] at hnul
  exact ⟨date, time, ⟨hdate, fun h => hnul (List.mem_append_left _ h)⟩,
    ⟨htime, fun h => hnul (List.mem_append_right _ (List.mem_cons_of_mem _ h))⟩, ht⟩

/-- The fields of the ALERT line; the time stamp is `date` and `time`. -/
def alertFields (r : AlertRecord) (date time : Bytes) : List Bytes :=
  [ascii "ALERT", fmtInt r.id, fmtInt r.alertType, r.contract, fmtPrice r.triggerPrice,
    fmtInt r.condition, timeOrDash r.triggerTime, fmtInt r.status, date, time]

theorem alertLine_fields (h : TokenRow r)
    (hcreated : IsDateTime r.createdAt) {line : Bytes} (hline : alertLine r = some line) :
    ∃ date time, r.createdAt.val = unwords [date, time] ∧
      line = unwords (alertFields r date time) ∧
      ∀ w ∈ alertFields r date time, IsField w := by
  obtain ⟨date, time, hdate, htime, hstamp⟩ := hcreated.fields
  refine ⟨date, time, hstamp, ?_, ?_⟩
  · obtain rfl := snprintf_eq_some hline
    simp only [alertFields, unwords_cons_cons, unwords_singleton, hstamp]
  · simp only [alertFields, List.forall_mem_cons]
    exact ⟨⟨by decide, by decide⟩, isField_fmtInt _, isField_fmtInt _,
      h.isField_contract, isField_fmtPrice _, isField_fmtInt _, h.isField_time,
      isField_fmtInt _, hdate, htime, List.forall_mem_nil _⟩

theorem alertLine_recovered (h : TokenRow r) (hcreated : IsDateTime r.createdAt)
    {line : Bytes} (hline : alertLine r = some line) (rest : Bytes) :
    clientRecvLine [] (serverSendLine line ++ rest) = some (line, rest) ∧
      ReadsAlert (clientSplit line) r ∧ addAlertLine line = some r.shown := by
  obtain ⟨date, time, hstamp, hprinted, hfields⟩ := alertLine_fields h hcreated hline
  obtain ⟨harrives, -, hsplit⟩ := line_arrives hfields rest
  rw [← hprinted] at harrives hsplit
  refine ⟨?_, ?_, ?_⟩
  · rw [serverSendLine, List.append_assoc]
    exact harrives
  · rw [hsplit]
    exact
      { id := congrArg some (intValue_fmtInt _)
        alertType := congrArg some (intValue_fmtInt _)
        contract := rfl
        triggerPrice := rfl
        condition := congrArg some (intValue_fmtInt _)
        triggerTime := rfl
        status := congrArg some (intValue_fmtInt _)
        createdAt := hstamp.symm }
  · have htype : fmtInt r.alertType = ascii "0" ↔ r.alertType = alertTypePrice :=
      fmtInt_eq_iff (by decide)
    have hcond : fmtInt r.condition = ascii "1" ↔ r.condition = condLE :=
      fmtInt_eq_iff (by decide)
    have hcreated : cstr (date ++ 32 :: time) = r.createdAt := by
      rw [← unwords_singleton time, ← unwords_cons_cons, ← hstamp, cstr_val]
    unfold addAlertLine
    rw [hsplit]
    simp only [alertFields, AlertRecord.shown, AlertRecord.row,
      conditionText, htype, hcond, cstr_timeOrDash, hcreated, formatPriceText_fmtPrice,
      statusName_fmtInt, cstr_val]

theorem triggeredLine_recovered (h : TokenRow r) {lastPrice : ℚ} {timestamp : Text}
    (htimestamp : IsDateTime timestamp) {msg : Bytes}
    (hmsg : triggeredLine r lastPrice timestamp = some msg) (rest : Bytes) :
    ∃ line, clientRecvLine [] (msg ++ rest) = some (line, rest) ∧
      ReadsTriggered (clientSplit (cstr line)) r lastPrice timestamp ∧
      triggeredMessage (cstr line) = r.message lastPrice timestamp ∧
      onTriggered (cstr line) = (r.message lastPrice timestamp).text := by
  obtain ⟨date, time, hdate, htime, hstamp⟩ := htimestamp.fields
  let ws := [ascii "TRIGGERED", fmtInt r.id, fmtInt r.alertType, r.contract,
    fmtPrice lastPrice, fmtInt r.condition, fmtPrice r.triggerPrice,
    timeOrDash r.triggerTime, date, time]
  have hfields : ∀ w ∈ ws, IsField w := by
    simp only [ws, List.forall_mem_cons]
    exact ⟨⟨by decide, by decide⟩, isField_fmtInt _, isField_fmtInt _,
      h.isField_contract, isField_fmtPrice _, isField_fmtInt _, isField_fmtPrice _,
      h.isField_time, hdate, htime, List.forall_mem_nil _⟩
  have hprinted : msg = unwords ws ++ [10] := by
    obtain rfl := snprintf_eq_some hmsg
    simp only [ws, unwords_cons_cons, unwords_singleton, hstamp]
  obtain ⟨harrives, hcstr, hsplit⟩ := line_arrives hfields rest
  have hmessage :
      triggeredMessage (cstr (unwords ws)) = r.message lastPrice timestamp := by
    have hcond : fmtInt r.condition = ascii "1" ↔ r.condition = condLE :=
      fmtInt_eq_iff (by decide)
    have htimestamp : cstr (date ++ 32 :: time) = timestamp := by
      rw [← unwords_singleton time, ← unwords_cons_cons, ← hstamp, cstr_val]
    unfold triggeredMessage
    rw [hcstr, hsplit]
    simp only [ws, AlertRecord.message, conditionText, hcond, htimestamp,
      formatPriceText_fmtPrice, alertType_fmtInt, cstr_val,
      List.foldl_cons, List.foldl_nil]
  refine ⟨unwords ws, ?_, ?_, hmessage, congrArg TriggeredMessage.text hmessage⟩
  · rw [hprinted, List.append_assoc]
    exact harrives
  · rw [hcstr, hsplit]
    exact
      { branch := Nat.le_succ 9
        id := congrArg some (intValue_fmtInt _)
        alertType := congrArg some (intValue_fmtInt _)
        contract := rfl
        lastPrice := rfl
        condition := congrArg some (intValue_fmtInt _)
        triggerPrice := rfl
        triggerTime := rfl
        timestamp := hstamp.symm }

end

/-- The client recovers every alert from the lines that the server prints for it. -/
theorem lines_recovered {r : AlertRecord} (h : WellFormed r) :
    (IsDateTime r.createdAt → ∀ line, alertLine r = some line → ∀ rest,
      clientRecvLine [] (serverSendLine line ++ rest) = some (line, rest) ∧
        ReadsAlert (clientSplit line) r ∧ addAlertLine line = some r.row) ∧
    ∀ lastPrice timestamp, IsDateTime timestamp →
      ∀ msg, triggeredLine r lastPrice timestamp = some msg → ∀ rest,
        ∃ line, clientRecvLine [] (msg ++ rest) = some (line, rest) ∧
          ReadsTriggered (clientSplit (cstr line)) r lastPrice timestamp ∧
          triggeredMessage (cstr line) = r.message lastPrice timestamp ∧
          onTriggered (cstr line) = (r.message lastPrice timestamp).text :=
  ⟨fun hcreated _ hline rest =>
    h.shown_eq ▸ alertLine_recovered h.tokenRow hcreated hline rest,
    fun _ _ htimestamp _ hmsg rest => triggeredLine_recovered h.tokenRow
      htimestamp hmsg rest⟩

/-- A time alert in the list and in its message box. -/
theorem time_alert_recovered :
    let stamp : LocalTime := ⟨2025, 5, 0, 8, 55, 0⟩
    let r := AlertDB.timeRow 1 (ascii "au2512") (ascii "09:30:00") stamp.stamp 7
    let msg := ascii "TRIGGERED 7 1 au2512 500.25 0 0.00 09:30:00 2025-06-01 08:55:00\n"
    addAlertLine (ascii "ALERT 7 1 au2512 0.00 0 09:30:00 0 2025-06-01 08:55:00") =
        some r.row ∧
      ∃ line, clientRecvLine [] (msg ++ []) = some (line, []) ∧
        triggeredMessage (cstr line) = r.message (2001 / 4) stamp.stamp := by
  intro stamp r msg
  have hformed : WellFormed r := ⟨by decide, .inr (by decide)⟩
  have hstamp : IsDateTime stamp.stamp := stamp.isDateTime_stamp
  obtain ⟨halert, htriggered⟩ := lines_recovered hformed
  obtain ⟨line, hline, -, hmessage, -⟩ :=
    htriggered (2001 / 4) stamp.stamp hstamp msg (by decide +kernel) []
  exact ⟨(halert hstamp _ (by decide +kernel) []).2.2, line, hline, hmessage⟩

end CloudAlert
