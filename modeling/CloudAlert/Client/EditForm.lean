import CloudAlert.Client.Views

/-!
# The edit form

`EnterEditMode` fills the form from the columns of a row of the list, and Save sends what
the form holds. So an alert that is saved as it is keeps what the ALERT line has printed
of it: a price its hundredths, and a time what `ValidateTimeText` accepts
(`saveKeeps_iff`).
-/

namespace CloudAlert

open Program

/-! ## `EnterEditMode` -/

/-- What an edit control makes of a column. The columns are fields of a line and contain
no line break. -/
def editText (t : Text) : Field :=
  ⟨t.val.filter fun b => b ≠ 10 ∧ b ≠ 13, fun b hb => by
    obtain ⟨hmem, hkept⟩ := List.mem_filter.mp hb
    exact ⟨fun hzero => t.property (hzero ▸ hmem), of_decide_eq_true hkept⟩⟩

/-- The form in edit mode. -/
structure EditForm where
  id : Field
  editAlertType : ℤ
  editor : Editor

/-- `CMainFrame::EnterEditMode`. -/
def enterEditMode (row : AlertRow) : EditForm :=
  if row.type = cstr (ascii "Time") then
    { id := editText row.id
      editAlertType := alertTypeTime
      editor := {
        contract := editText row.contract
        price := editText Text.empty
        timeText := editText row.time
        typeSel := 1
        condSel := 0 } }
  else
    { id := editText row.id
      editAlertType := alertTypePrice
      editor := {
        contract := editText row.contract
        price := editText row.trigger
        timeText := editText Text.empty
        typeSel := 0
        condSel := if ascii "<=" <:+: row.cond.val then 1 else 0 } }

/-- `CMainFrame::ValidateAlertId`. -/
def validateAlertId (id : Bytes) : Except String Unit :=
  if id = [] then .error "Please select or enter an alert ID."
  else if id.all isDigit then .ok ()
  else .error "Alert ID must be a number."

/-- `CMainFrame::OnModifyPrice`, up to the command. -/
def onModifyPrice (form : EditForm) : Except String ClientCommand := do
  let id := trim form.id
  let contract := trim form.editor.contract
  let price := trim form.editor.price
  let timeText := trim form.editor.timeText
  validateAlertId id
  validateContract contract
  if form.editAlertType = alertTypePrice then do
    validatePrice price
    return .modifyPrice id contract price (max 0 form.editor.condSel)
  else do
    validateTimeText timeText
    return .modifyTime id contract timeText

/-! ## Texts in the form -/

/-- A text without white space is in the form as it is. -/
theorem trim_editText {t : Text} (h : NoSpace t.val) :
    (trim (editText t)).val = t.val := by
  have hkept : (editText t).val = t.val := by
    refine List.filter_eq_self.mpr fun b hb => decide_eq_true ?_
    exact (plain_of_not_isSpace (h b hb) fun hzero => t.property (hzero ▸ hb)).2
  have hfront : t.val.dropWhile isSpace = t.val :=
    dropWhile_isSpace fun b hb => h b (List.mem_of_mem_head? hb)
  have hback : t.val.rdropWhile isSpace = t.val :=
    List.rdropWhile_eq_self_iff.mpr fun hne =>
      Bool.eq_false_iff.mp (h _ (List.getLast_mem hne))
  change (((editText t).val.dropWhile isSpace).rdropWhile isSpace) = _
  rw [hkept, hfront, hback]

theorem idText (n : ℤ) : (trim (editText (cstr (fmtInt n)))).val = fmtInt n := by
  have hval := cstr_of_plain (plain_fmtInt n)
  rw [trim_editText (by rw [hval]; exact (isToken_fmtInt n).2), hval]

theorem priceText (x : ℚ) : (trim (editText (cstr (fmtPrice x)))).val = fmtPrice x := by
  have hval := cstr_of_plain (plain_fmtPrice x)
  rw [trim_editText (by rw [hval]; exact (isToken_fmtPrice x).2), hval]

theorem validateAlertId_fmtInt {n : ℤ} (h : 0 < n) :
    validateAlertId (fmtInt n) = .ok () := by
  have hdigits : (fmtInt n).all isDigit := by
    rw [fmtInt, if_neg (not_lt.mpr h.le)]
    exact List.all_eq_true.mpr fun b hb => isDigit_of_mem_fmtNat hb
  rw [validateAlertId, if_neg (isToken_fmtInt n).1, if_pos hdigits]

theorem validatePrice_fmtPrice {x : ℚ} (h : 0 < x) :
    validatePrice (fmtPrice x) = .ok () ↔ hundredths x ≠ 0 := by
  have hne := (isToken_fmtPrice x).1
  unfold validatePrice
  rw [if_neg hne, strtod_fmtPrice, decide_eq_false (not_lt.mpr h.le)]
  dsimp only
  rw [cstr_of_plain (plain_fmtPrice x)]
  have hzero : Reading.nonpositive (.finite false (hundredths x / 100)) ↔
      hundredths x = 0 := by
    simp [Reading.nonpositive]
  by_cases hsmall : hundredths x = 0
  · rw [if_pos (.inr (.inr (hzero.mpr hsmall)))]
    exact iff_of_false nofun (not_not.mpr hsmall)
  · rw [if_neg]
    · exact iff_of_true rfl hsmall
    · rintro (hnil | hrest | hnonpositive)
      · exact hne hnil.symm
      · exact hrest rfl
      · exact hsmall (hzero.mp hnonpositive)

/-! ## What Save sends -/

section

variable {r : AlertRecord}

/-- Save of a price alert as it is. -/
def priceSave (r : AlertRecord) : ClientCommand :=
  .modifyPrice (trim (editText (cstr (fmtInt r.id)))) (trim (editText r.contract))
    (trim (editText (cstr (fmtPrice r.triggerPrice))))
    (if r.condition = condLE then 1 else 0)

/-- Save of a time alert as it is. -/
def timeSave (r : AlertRecord) : ClientCommand :=
  .modifyTime (trim (editText (cstr (fmtInt r.id)))) (trim (editText r.contract))
    (trim (editText r.shown.time))

theorem noSpace_shownTime (h : TokenRow r) : NoSpace r.shown.time.val := by
  have hempty : NoSpace Text.empty.val := List.forall_mem_nil _
  change NoSpace (if r.triggerTime.val = ascii "-" then Text.empty else r.triggerTime).val
  split
  · exact hempty
  · rcases h.triggerTime with htime | htime
    · rw [htime]
      exact hempty
    · exact htime.2

theorem priceSave_arguments (h : TokenRow r) : (priceSave r).arguments =
    [fmtInt r.id, r.contract.val, fmtPrice r.triggerPrice,
      fmtInt (if r.condition = condLE then 1 else 0)] := by
  rw [priceSave, ClientCommand.arguments, idText, trim_editText h.contract.2, priceText]

theorem timeSave_arguments (h : TokenRow r) : (timeSave r).arguments =
    [fmtInt r.id, r.contract.val, r.shown.time.val] := by
  rw [timeSave, ClientCommand.arguments, idText, trim_editText h.contract.2,
    trim_editText (noSpace_shownTime h)]

theorem ok_bind {α β : Type} (a : α) (f : α → Except String β) :
    (.ok a >>= f) = f a := rfl

/-- Save of a price alert is decided by the check of its price. -/
theorem onModifyPrice_price (h : TokenRow r) (hid : 0 < r.id)
    (hcontract : validateContract r.contract = .ok ())
    (htype : r.alertType = alertTypePrice) :
    onModifyPrice (enterEditMode r.shown) =
      validatePrice (fmtPrice r.triggerPrice) >>= fun _ => .ok (priceSave r) := by
  have hmode : r.shown.type ≠ cstr (ascii "Time") := by
    change cstr (if r.alertType = alertTypePrice then _ else _) ≠ _
    rw [if_pos htype]
    decide
  have hcond : max 0 (if ascii "<=" <:+: r.shown.cond.val then (1 : ℤ) else 0) =
      if r.condition = condLE then 1 else 0 := by
    change max 0
      (if ascii "<=" <:+: (cstr (conditionText r.condition)).val then (1 : ℤ) else 0) = _
    unfold conditionText
    split <;> decide
  have hidColumn : r.shown.id = cstr (fmtInt r.id) := rfl
  have hprice : r.shown.trigger = cstr (fmtPrice r.triggerPrice) := rfl
  have hcontractColumn : r.shown.contract = r.contract := rfl
  rw [enterEditMode, if_neg hmode, onModifyPrice]
  dsimp only
  rw [hcond, hidColumn, hprice, hcontractColumn, idText, priceText,
    trim_editText h.contract.2, validateAlertId_fmtInt hid, ok_bind, hcontract,
    ok_bind, if_pos rfl]
  rfl

/-- Save of a time alert is decided by the check of its time. -/
theorem onModifyPrice_time (h : TokenRow r) (hid : 0 < r.id)
    (hcontract : validateContract r.contract = .ok ())
    (htype : r.alertType = alertTypeTime) :
    onModifyPrice (enterEditMode r.shown) =
      validateTimeText r.shown.time >>= fun _ => .ok (timeSave r) := by
  have hmode : r.shown.type = cstr (ascii "Time") := by
    change cstr (if r.alertType = alertTypePrice then _ else _) = _
    rw [if_neg (by rw [htype]; decide)]
  have hidColumn : r.shown.id = cstr (fmtInt r.id) := rfl
  have hcontractColumn : r.shown.contract = r.contract := rfl
  rw [enterEditMode, if_pos hmode, onModifyPrice]
  dsimp only
  rw [hidColumn, hcontractColumn, idText, trim_editText h.contract.2,
    trim_editText (noSpace_shownTime h), validateAlertId_fmtInt hid, ok_bind,
    hcontract, ok_bind, if_neg (by decide)]
  rfl

/-! ## What the server does -/

variable {w : World} {self : Session}

theorem run_handleModifyPrice {line word alertId contract price cond : Bytes}
    {rest : List Bytes} (hself : 0 ≤ self.userId)
    (htokens : splitLine line = word :: alertId :: contract :: price :: cond :: rest)
    (hcond : atoi cond = condGE ∨ atoi cond = condLE)
    (hok : (exec (.modifyPriceAlert (atoi alertId) self.userId contract (atof price)
      (atoi cond)) w).1 = true) :
    (run exec (handleModifyPrice self line) w).1 = (self, ⟨[ascii "OK"], false⟩) ∧
      (run exec (handleModifyPrice self line) w).2.db =
        (exec (.modifyPriceAlert (atoi alertId) self.userId contract (atof price)
          (atoi cond)) w).2.db := by
  have hchecked : ¬ (atoi cond ≠ condGE ∧ atoi cond ≠ condLE) := fun h =>
    hcond.elim h.1 h.2
  unfold handleModifyPrice
  rw [if_neg (not_lt.mpr hself), htokens]
  dsimp only
  rw [if_neg hchecked]
  refine run_ask_settled ?_
  rw [hok, if_pos rfl]
  exact settled_refresh (settled_call trivial fun _ => settled_ret)

theorem run_handleModifyTime {line word alertId contract timeStr : Bytes}
    {rest : List Bytes} (hself : 0 ≤ self.userId)
    (htokens : splitLine line = word :: alertId :: contract :: timeStr :: rest)
    (hok : (exec (.modifyTimeAlert (atoi alertId) self.userId contract timeStr) w).1 =
      true) :
    (run exec (handleModifyTime self line) w).1 = (self, ⟨[ascii "OK"], false⟩) ∧
      (run exec (handleModifyTime self line) w).2.db =
        (exec (.modifyTimeAlert (atoi alertId) self.userId contract timeStr) w).2.db := by
  unfold handleModifyTime
  rw [if_neg (not_lt.mpr hself), htokens]
  dsimp only
  refine run_ask_settled ?_
  rw [hok, if_pos rfl]
  exact settled_refresh settled_ret

/-- The alerts agree in what the form shows. -/
structure SameAlert (r r' : AlertRecord) : Prop where
  alertType : r'.alertType = r.alertType
  contract : r'.contract = r.contract
  triggerPrice : r'.triggerPrice = r.triggerPrice
  condition : r'.condition = r.condition
  triggerTime : r'.triggerTime = r.triggerTime

/-- Save sends a command for the row as it is, the session receives it whole and answers
OK, and the alert is the same after it. -/
def SaveKeeps (w : World) (self : Session) (row : AlertRow) (r : AlertRecord) : Prop :=
  ∃ c, onModifyPrice (enterEditMode row) = .ok c ∧ received c.text = [c.text] ∧
    (run exec (dispatch self c.text) w).1 = (self, ⟨[ascii "OK"], false⟩) ∧
    ∃ r' ∈ (run exec (dispatch self c.text) w).2.db.alerts.rows, r'.id =
    r.id ∧ SameAlert r r'

/-- A save whose command makes the call `c` leaves the alert as `c` edits it. -/
theorem saveKeeps_iff_edit {row : AlertRow} {cmd : ClientCommand} {c : Call}
    (hcmd : onModifyPrice (enterEditMode row) = .ok cmd)
    (hfits : cmd.text.length ≤ recvBufSize)
    (hreply : (run exec (dispatch self cmd.text) w).1 = (self, ⟨[ascii "OK"], false⟩))
    (hdb : (run exec (dispatch self cmd.text) w).2.db = (exec c w).2.db)
    (hr : r ∈ w.db.alerts.rows) (hguard : c.guard r) :
    SaveKeeps w self row r ↔ SameAlert r (c.edit r) := by
  have hafter : c.apply r ∈ (exec c w).2.db.alerts.rows := mem_alerts_after c hr
  have hedit : c.apply r = c.edit r := if_pos hguard
  constructor
  · rintro ⟨cmd', hcmd', -, -, r', hr', hid, hsame⟩
    obtain rfl := Except.ok.inj (hcmd.symm.trans hcmd')
    rw [hdb] at hr'
    obtain rfl :=
      (exec c w).2.db.alerts.eq_of_key hr' hafter (hid.trans (apply_id c r).symm)
    exact hedit ▸ hsame
  · intro hsame
    refine ⟨cmd, hcmd, (received_text_iff cmd).mpr hfits, hreply, c.apply r, ?_,
      apply_id c r, ?_⟩
    · rw [hdb]
      exact hafter
    · exact hedit ▸ hsame

/-- A command for an alert whose ALERT line fits its buffer goes through the receive
buffer. -/
theorem save_fits (h : TokenRow r) {line : Bytes} (hline : alertLine r = some line) :
    (priceSave r).text.length ≤ recvBufSize ∧ (timeSave r).text.length ≤ recvBufSize := by
  have hfits := (Option.ite_none_right_eq_some.mp hline).1
  have hcond : (fmtInt (if r.condition = condLE then 1 else 0)).length = 1 := by
    split <;> decide
  have htime : r.shown.time.val.length ≤ (timeOrDash r.triggerTime).length := by
    change (if r.triggerTime.val = ascii "-" then Text.empty
      else r.triggerTime).val.length ≤ _
    unfold timeOrDash
    split
    · exact Nat.zero_le _
    · split
      · rename_i hempty
        rw [hempty]
        exact Nat.zero_le _
      · exact le_rfl
  have hprice : (ascii "MODIFY_PRICE").length = 12 := by decide
  have hmodifyTime : (ascii "MODIFY_TIME").length = 11 := by decide
  have hprinted := priceSave_arguments h
  have hprinted' := timeSave_arguments h
  have hword : (priceSave r).word = ascii "MODIFY_PRICE" := rfl
  have hword' : (timeSave r).word = ascii "MODIFY_TIME" := rfl
  rw [ClientCommand.text, ClientCommand.text, hprinted, hprinted', hword,
    hword', recvBufSize]
  simp only [unwords_cons_cons, unwords_singleton, List.length_append,
    List.length_cons] at hfits ⊢
  omega

/-! ## The law -/

/-- The check of the time in the list is that of the stored one. -/
theorem validate_shownTime :
    validateTimeText r.shown.time = .ok () ↔ validateTimeText r.triggerTime = .ok () := by
  change validateTimeText (if r.triggerTime.val = ascii "-" then Text.empty
    else r.triggerTime).val
    = _ ↔ _
  split
  · rename_i hdash
    rw [hdash]
    exact iff_of_false (by decide) (by decide)
  · exact Iff.rfl

theorem shownTime_of_valid (h : validateTimeText r.shown.time = .ok ()) :
    r.shown.time = r.triggerTime := by
  refine if_neg fun hdash => ?_
  rw [validate_shownTime, hdash] at h
  exact absurd h (by decide)

/-- An alert of the user that is not deleted. Its contract passes the check of the form,
its time is a token, and its price, if it is a price alert, is positive. -/
structure Editable (w : World) (session : Session) (r : AlertRecord) : Prop where
  mem : r ∈ w.db.alerts.rows
  owner : r.userId = session.userId
  live : r.status ≠ 2
  id : r.id < 2 ^ 31
  contract : validateContract r.contract = .ok ()
  triggerTime : r.triggerTime = Text.empty ∨ IsToken r.triggerTime.val
  triggerPrice : r.alertType = alertTypePrice → 0 < r.triggerPrice

theorem Editable.tokenRow (h : Editable w self r) : TokenRow r where
  contract := isToken_of_validateContract h.contract
  triggerTime := h.triggerTime

theorem Editable.atoi_id (h : Editable w self r) (hid : 0 < r.id) :
    atoi (fmtInt r.id) = r.id := by
  have hbound := h.id
  rw [atoi_of_numeral (isIntNumeral_fmtInt _), intValue_fmtInt]
  omega

theorem Editable.ownGuard (h : Editable w self r) (hid : 0 < r.id) :
    AlertDB.ownGuard (atoi (fmtInt r.id)) self.userId r :=
  AlertDB.ownGuard_iff.mpr ⟨(h.atoi_id hid).symm, h.owner, h.live⟩

theorem saveKeeps_price_iff (hself : 0 ≤ self.userId) (hstored : StoredRow r)
    (h : Editable w self r) {line : Bytes} (hline : alertLine r = some line)
    (htype : r.alertType = alertTypePrice) :
    SaveKeeps w self r.shown r ↔ ∃ n : ℕ, r.triggerPrice = n / 100 := by
  have hprice := h.triggerPrice htype
  have hform := onModifyPrice_price h.tokenRow hstored.id h.contract htype
  by_cases hvalid : hundredths r.triggerPrice = 0
  · -- the form shows 0.00, and its check refuses that
    refine iff_of_false ?_ ?_
    · rintro ⟨c, hc, -⟩
      rw [hform] at hc
      obtain ⟨⟨⟩, hchecked, -⟩ := except_bind_ok hc
      exact (validatePrice_fmtPrice hprice).mp hchecked hvalid
    · rw [← hundredths_eq_iff, hvalid, Nat.cast_zero, zero_div]
      exact hprice.ne
  · rw [(validatePrice_fmtPrice hprice).mpr hvalid, ok_bind] at hform
    have hcond : atoi (fmtInt (if r.condition = condLE then 1 else 0)) = r.condition := by
      rcases hstored.condition with hge | hle
      · rw [hge]
        decide
      · rw [hle]
        decide
    have htokens :
        splitLine (priceSave r).text = (priceSave r).word :: (priceSave r).arguments := by
      refine ClientCommand.splitLine_text ?_
      rw [priceSave_arguments h.tokenRow]
      simp only [List.forall_mem_cons]
      exact ⟨isToken_fmtInt _, h.tokenRow.contract, isToken_fmtPrice _, isToken_fmtInt _,
        List.forall_mem_nil _⟩
    rw [priceSave_arguments h.tokenRow] at htokens
    have hchecked := hstored.condition
    rw [← hcond] at hchecked
    obtain ⟨hreply, hdb⟩ := run_handleModifyPrice hself htokens hchecked
      (modifyPriceAlert_true.mpr ⟨r, h.mem, (h.atoi_id hstored.id).symm, h.owner, h.live⟩)
    rw [← dispatch_modifyPrice (ClientCommand.commandWord_text _)] at hreply hdb
    rw [saveKeeps_iff_edit hform (save_fits h.tokenRow hline).1 hreply hdb h.mem
      (h.ownGuard hstored.id), ← hundredths_eq_iff, ← atof_fmtPrice hprice.le]
    exact ⟨SameAlert.triggerPrice,
      fun hsame => ⟨htype.symm, cstr_val _, hsame, hcond, rfl⟩⟩

theorem saveKeeps_time_iff (hself : 0 ≤ self.userId) (hstored : StoredRow r)
    (h : Editable w self r) {line : Bytes} (hline : alertLine r = some line)
    (htype : r.alertType = alertTypeTime) :
    SaveKeeps w self r.shown r ↔ validateTimeText r.triggerTime = .ok () := by
  have hform := onModifyPrice_time h.tokenRow hstored.id h.contract htype
  rw [← validate_shownTime]
  constructor
  · rintro ⟨c, hc, -⟩
    rw [hform] at hc
    obtain ⟨⟨⟩, hchecked, -⟩ := except_bind_ok hc
    exact hchecked
  · intro hvalid
    rw [hvalid, ok_bind] at hform
    have htokens :
        splitLine (timeSave r).text = (timeSave r).word :: (timeSave r).arguments := by
      refine ClientCommand.splitLine_text ?_
      rw [timeSave_arguments h.tokenRow]
      simp only [List.forall_mem_cons]
      exact ⟨isToken_fmtInt _, h.tokenRow.contract, isToken_of_validateTimeText hvalid,
        List.forall_mem_nil _⟩
    rw [timeSave_arguments h.tokenRow] at htokens
    obtain ⟨hreply, hdb⟩ := run_handleModifyTime hself htokens
      (modifyTimeAlert_true.mpr ⟨r, h.mem, (h.atoi_id hstored.id).symm, h.owner, h.live⟩)
    rw [← dispatch_modifyTime (ClientCommand.commandWord_text _)] at hreply hdb
    rw [saveKeeps_iff_edit hform (save_fits h.tokenRow hline).2 hreply hdb h.mem
      (h.ownGuard hstored.id)]
    refine ⟨htype.symm, cstr_val _, rfl, rfl, ?_⟩
    change cstr r.shown.time.val = r.triggerTime
    rw [cstr_val, shownTime_of_valid hvalid]

/-- An alert that is saved as it is stays as it is exactly if its price is a whole number
of hundredths, or its time passes the check of the form. -/
theorem saveKeeps_iff (hstored : w.db.Stored) (hself : 0 ≤ self.userId)
    (h : Editable w self r)
    {line : Bytes} (hline : alertLine r = some line) {row : AlertRow}
    (hrow : addAlertLine line = some row) :
    SaveKeeps w self row r ↔
      (r.alertType = alertTypePrice → ∃ n : ℕ, r.triggerPrice = n / 100) ∧
        (r.alertType = alertTypeTime → validateTimeText r.triggerTime = .ok ()) := by
  have hkept := hstored.storedRow r h.mem
  have hcreated : IsDateTime r.createdAt := by
    obtain ⟨now, hnow⟩ := hkept.createdAt
    exact hnow ▸ now.isDateTime_stamp
  obtain ⟨-, -, hshown⟩ := alertLine_recovered h.tokenRow hcreated hline []
  obtain rfl := Option.some.inj (hshown.symm.trans hrow)
  rcases hkept.alertType with htype | htype
  · rw [saveKeeps_price_iff hself hkept h hline htype, htype]
    exact ⟨fun hprice => ⟨fun _ => hprice, nofun⟩, fun hboth => hboth.1 rfl⟩
  · rw [saveKeeps_time_iff hself hkept h hline htype, htype]
    exact ⟨fun htime => ⟨nofun, fun _ => htime⟩, fun hboth => hboth.2 rfl⟩

end

/-! ## A price of three decimals -/

/-- The alert of ann. -/
def annAlert : AlertRecord :=
  AlertDB.priceRow 1 (ascii "rb2510") 3500 condGE (quietServer.world.clock 0).stamp 1

/-- A price of 3500 is saved as it is. -/
theorem saveKeeps_annAlert :
    let line := ascii "ALERT 1 0 rb2510 3500.00 0 - 0 2025-07-01 09:30:00"
    alertLine annAlert = some line ∧ addAlertLine line = some annAlert.shown ∧
      SaveKeeps annStored annSession annAlert.shown annAlert := by
  intro line
  have hline : alertLine annAlert = some line := by decide +kernel
  have hrow : addAlertLine line = some annAlert.shown := by decide +kernel
  have heditable : Editable annStored annSession annAlert := {
    mem := annStored_rows ▸ List.mem_singleton_self _
    owner := rfl
    live := by decide
    id := by decide
    contract := by decide
    triggerTime := .inl rfl
    triggerPrice := fun _ => by decide +kernel }
  refine ⟨hline, hrow,
    (saveKeeps_iff annStored_stored (by decide) heditable hline hrow).mpr ?_⟩
  exact ⟨fun _ => ⟨350000, by decide +kernel⟩, nofun⟩

/-- ann adds an alert at 108.005, with the four decimals that the console client
prints. -/
def bondStored : World :=
  (exec (.addPriceAlert 1 (ascii "T2512") (atof (ascii "108.0050")) condGE) annStored).2

def bondAlert : AlertRecord :=
  AlertDB.priceRow 1 (ascii "T2512") (atof (ascii "108.0050")) condGE
    (quietServer.world.clock 0).stamp 2

/-- The alert at 108.005 is saved with the price 108.00. -/
theorem bond_price_is_cut :
    ¬ ∀ (w : World) (self : Session) (r : AlertRecord), w.db.Stored → 0 ≤ self.userId →
      Editable w self r → ∀ line row, alertLine r = some line →
      addAlertLine line = some row →
      SaveKeeps w self row r := by
  intro hall
  let line := ascii "ALERT 2 0 T2512 108.00 0 - 0 2025-07-01 09:30:00"
  have hstored : bondStored.db.Stored := annStored_stored.call .none
    (.addPriceAlert 1 (ascii "T2512") (atof (ascii "108.0050")) condGE) (.inl rfl)
  have heditable : Editable bondStored annSession bondAlert := {
    mem := by decide +kernel
    owner := rfl
    live := by decide
    id := by decide
    contract := by decide
    triggerTime := .inl rfl
    triggerPrice := fun _ => by decide +kernel }
  obtain ⟨c, hc, -, -, r, hr, hid, hsame⟩ := hall bondStored annSession bondAlert hstored
    (by decide) heditable line bondAlert.shown (by decide +kernel) (by decide +kernel)
  let sent : ClientCommand :=
    .modifyPrice ⟨ascii "2", by decide⟩ ⟨ascii "T2512", by decide⟩
    ⟨ascii "108.00", by decide⟩ 0
  have hsent : onModifyPrice (enterEditMode bondAlert.shown) = .ok sent := by
    decide +kernel
  obtain rfl : sent = c := Except.ok.inj (hsent.symm.trans hc)
  have hsaved :
      ∀ r ∈ (run exec (dispatch annSession sent.text) bondStored).2.db.alerts.rows, r.id =
      2 → r.triggerPrice = 108 := by decide +kernel
  have hprice := (hsaved r hr hid).symm.trans hsame.triggerPrice
  exact absurd hprice (by decide +kernel)

end CloudAlert
