import CloudAlert.Server.Failures
import CloudAlert.Session.Buffers
import CloudAlert.Text.Numerals

/-!
# Modified alerts

MODIFY_PRICE keeps the time of the alert and MODIFY_TIME its price and its condition, and
the ALERT and TRIGGERED lines print all three whatever the type of the alert is. So the
lines of a modified alert are those of a new one exactly if what was kept prints like the
values a new alert has there.
-/

namespace CloudAlert

/-! ## Printed fields -/

theorem takeWhile_field {x : Bytes} (hx : 32 ∉ x) (s : Bytes) :
    (x ++ 32 :: s).takeWhile (· ≠ 32) = x := by
  have hfield : ∀ b ∈ x, decide (b ≠ 32) := fun b hb =>
    decide_eq_true fun heq => hx (heq ▸ hb)
  rw [List.takeWhile_append_of_pos hfield, List.takeWhile_cons_of_neg (by decide),
    List.append_nil]

theorem field_append_inj {x y s t : Bytes} (hx : 32 ∉ x) (hy : 32 ∉ y) :
    x ++ 32 :: s = y ++ 32 :: t ↔ x = y ∧ s = t := by
  constructor
  · intro h
    have hfield := congrArg (List.takeWhile (· ≠ 32)) h
    rw [takeWhile_field hx, takeWhile_field hy] at hfield
    subst hfield
    exact ⟨rfl, (List.cons.inj (List.append_cancel_left h)).2⟩
  · rintro ⟨rfl, rfl⟩
    rfl

theorem IsToken.blank_not_mem {tok : Bytes} (h : IsToken tok) : 32 ∉ tok := fun hmem =>
  absurd (h.2 32 hmem) (by decide)

theorem snprintf_eq_iff {size : ℕ} {s t : Bytes} :
    snprintf size s = snprintf size t ↔ s = t ∨ size ≤ s.length ∧ size ≤ t.length := by
  unfold snprintf
  constructor
  · intro h
    by_cases hs : s.length < size
    · rw [if_pos hs] at h
      exact .inl (Option.some.inj (Option.ite_none_right_eq_some.mp h.symm).2).symm
    · rw [if_neg hs] at h
      refine .inr ⟨not_lt.mp hs, not_lt.mp fun ht => ?_⟩
      rw [if_pos ht] at h
      cases h
  · rintro (rfl | ⟨hs, ht⟩)
    · rfl
    · rw [if_neg (not_lt.mpr hs), if_neg (not_lt.mpr ht)]

/-! ## The lines -/

/-- The ALERT lines of the two alerts are the same, and so are their TRIGGERED lines at
every price and time. -/
def SameLines (r r' : AlertRecord) : Prop :=
  alertLine r = alertLine r' ∧
    ∀ (p : ℚ) (now : LocalTime), triggeredLine r p now.stamp =
    triggeredLine r' p now.stamp

/-- The texts of the columns that both lines print. -/
def printed (r : AlertRecord) : Bytes × Bytes × Bytes :=
  (fmtPrice r.triggerPrice, fmtInt r.condition, timeOrDash r.triggerTime)

/-- The two alerts agree in the columns that a modification does not take from the old
row. -/
structure SameRest (r r' : AlertRecord) : Prop where
  id : r.id = r'.id
  alertType : r.alertType = r'.alertType
  contract : r.contract = r'.contract
  status : r.status = r'.status
  createdAt : r.createdAt = r'.createdAt

/-- The lines are too long for their buffers, at every price and time. -/
def NeverFits (r : AlertRecord) : Prop :=
  512 ≤ alertWidth r ∧ 512 ≤ triggeredWidth r 0 ⟨0, 0, 0, 0, 0, 0⟩

theorem priceWidth_zero_le (p : ℚ) : priceWidth 0 ≤ priceWidth p := by
  have hzero : priceWidth 0 = 4 := by
    rw [← fmtPrice_length]
    decide +kernel
  rw [hzero, priceWidth, natWidth]
  omega

/-- The shortest time stamp and the shortest price. -/
theorem triggeredWidth_le (r : AlertRecord) (p : ℚ) (now : LocalTime) :
    triggeredWidth r 0 ⟨0, 0, 0, 0, 0, 0⟩ ≤ triggeredWidth r p now := by
  have hprice := priceWidth_zero_le p
  have hstamp : stampWidth ⟨0, 0, 0, 0, 0, 0⟩ ≤ stampWidth now := by
    simp [stampWidth, natWidth]
  unfold triggeredWidth
  omega

theorem NeverFits.alertLine {r : AlertRecord} (h : NeverFits r) : alertLine r = none :=
  (alertLine_eq_none r).mpr h.1

theorem NeverFits.triggeredLine {r : AlertRecord} (h : NeverFits r) (p : ℚ)
    (now : LocalTime) : triggeredLine r p now.stamp = none :=
  (triggeredLine_eq_none r p now).mpr (h.2.trans (triggeredWidth_le r p now))

section

variable {r r' : AlertRecord}

theorem alertLine_eq_iff (h : SameRest r r') : alertLine r = alertLine r' ↔
    printed r = printed r' ∨ 512 ≤ alertWidth r ∧ 512 ≤ alertWidth r' := by
  rw [← alertLine_eq_none, ← alertLine_eq_none]
  unfold alertLine
  rw [snprintf_eq_iff, snprintf_eq_none, snprintf_eq_none]
  refine or_congr_left ?_
  simp only [unwords_cons_cons, unwords_singleton, h.id, h.alertType,
    h.contract, h.status, h.createdAt, List.append_cancel_left_eq, List.cons.injEq,
    true_and, printed, Prod.mk.injEq]
  rw [field_append_inj (isToken_fmtPrice _).blank_not_mem
    (isToken_fmtPrice _).blank_not_mem, field_append_inj (isToken_fmtInt _).blank_not_mem
    (isToken_fmtInt _).blank_not_mem, List.append_cancel_right_eq]

theorem triggeredLine_eq_iff (h : SameRest r r') (p : ℚ) (now : LocalTime) :
    triggeredLine r p now.stamp = triggeredLine r' p now.stamp ↔
      printed r = printed r' ∨ 512 ≤ triggeredWidth r p now ∧
      512 ≤ triggeredWidth r' p now := by
  rw [← triggeredLine_eq_none, ← triggeredLine_eq_none]
  unfold triggeredLine
  rw [snprintf_eq_iff, snprintf_eq_none, snprintf_eq_none]
  refine or_congr_left ?_
  simp only [unwords_cons_cons, unwords_singleton, h.id, h.alertType, h.contract,
    List.append_cancel_left_eq, List.append_cancel_right_eq, List.cons.injEq,
    true_and, printed, Prod.mk.injEq]
  rw [field_append_inj (isToken_fmtInt _).blank_not_mem (isToken_fmtInt _).blank_not_mem,
    field_append_inj (isToken_fmtPrice _).blank_not_mem
    (isToken_fmtPrice _).blank_not_mem, List.append_cancel_right_eq]
  exact and_left_comm

/-- Which lines two such alerts have in common. -/
theorem sameLines_iff (h : SameRest r r') :
    SameLines r r' ↔ printed r = printed r' ∨ NeverFits r ∧ NeverFits r' := by
  constructor
  · rintro ⟨halert, htriggered⟩
    by_cases hprinted : printed r = printed r'
    · exact .inl hprinted
    · obtain ⟨ha, ha'⟩ := ((alertLine_eq_iff h).mp halert).resolve_left hprinted
      obtain ⟨ht, ht'⟩ :=
        ((triggeredLine_eq_iff h 0 _).mp (htriggered 0 _)).resolve_left hprinted
      exact .inr ⟨⟨ha, ht⟩, ha', ht'⟩
  · rintro (hprinted | ⟨hfits, hfits'⟩)
    · exact ⟨(alertLine_eq_iff h).mpr (.inl hprinted), fun p now =>
        (triggeredLine_eq_iff h p now).mpr (.inl hprinted)⟩
    · refine ⟨hfits.alertLine.trans hfits'.alertLine.symm, fun p now => ?_⟩
      exact (hfits.triggeredLine p now).trans (hfits'.triggeredLine p now).symm

/-- Wider columns fit no better. -/
theorem NeverFits.of_le (h : SameRest r r')
    (hprice : priceWidth r'.triggerPrice ≤ priceWidth r.triggerPrice)
    (hcondition : intWidth r'.condition ≤ intWidth r.condition)
    (htime : timeWidth r'.triggerTime ≤ timeWidth r.triggerTime) (hfits : NeverFits r') :
    NeverFits r := by
  obtain ⟨ha, ht⟩ := hfits
  unfold alertWidth at ha
  unfold triggeredWidth at ht
  rw [← h.id, ← h.alertType, ← h.contract] at ha ht
  rw [← h.status, ← h.createdAt] at ha
  refine ⟨?_, ?_⟩
  · unfold alertWidth
    omega
  · unfold triggeredWidth
    omega

end

/-! ## Modifications -/

/-- The parameters of a MODIFY_PRICE or a MODIFY_TIME. -/
inductive Modification where
  | price (contract : Bytes) (price : ℚ) (cond : ℤ)
  | time (contract time : Bytes)

/-- The method of `AlertDB` that the command calls. -/
def Modification.run (db : AlertDB) (sql : Faults) (alertId userId : ℤ) :
    Modification → Bool × AlertDB
  | .price c p cond => db.modifyPriceAlert sql alertId userId c p cond
  | .time c t => db.modifyTimeAlert sql alertId userId c t

/-- The row that ADD_PRICE or ADD_TIME inserts for the same parameters. -/
def Modification.fresh (userId : ℤ) (ts : Text) (alertId : ℤ) : Modification → AlertRecord
  | .price c p cond => AlertDB.priceRow userId c p cond ts alertId
  | .time c t => AlertDB.timeRow userId c t ts alertId

/-- What the modification keeps of the old row prints like the values of a new one. -/
def Modification.Clean (r : AlertRecord) : Modification → Prop
  | .price _ _ _ => r.triggerTime = Text.empty ∨ r.triggerTime.val = ascii "-"
  | .time _ _ => fmtPrice r.triggerPrice = ascii "0.00" ∧ r.condition = 0

theorem intWidth_zero_le (n : ℤ) : intWidth 0 ≤ intWidth n := by
  have hzero : intWidth 0 = 1 := by
    rw [← fmtInt_length]
    rfl
  rw [hzero, intWidth, natWidth]
  omega

theorem timeOrDash_eq_dash {t : Text} :
    timeOrDash t = ascii "-" ↔ t = Text.empty ∨ t.val = ascii "-" := by
  unfold timeOrDash
  by_cases ht : t = Text.empty
  · rw [if_pos ht]
    exact iff_of_true rfl (.inl ht)
  · rw [if_neg ht]
    exact (or_iff_right ht).symm

theorem AlertDB.updated_row {db : AlertDB} {sql : Faults} {guard : AlertRecord → Bool}
    {f : AlertRecord → AlertRecord} {hf : ∀ r, (f r).id = r.id}
    (hok : (db.updateAlerts sql guard f hf).1 = true) {r : AlertRecord}
    (hr : r ∈ db.alerts.rows) (hguard : guard r) {P : AlertRecord → Prop} :
    (∀ r' ∈ (db.updateAlerts sql guard f hf).2.alerts.rows, r'.id = r.id → P r') ↔
    P (f r) := by
  obtain ⟨hdone, -⟩ := (db.updateAlerts_faulty_true sql).mp hok
  rw [db.updateAlerts_of_succeeds sql hdone, updateAlerts_none, Table.update_rows]
  constructor
  · exact fun hall => hall (f r) (List.mem_map.mpr ⟨r, hr, if_pos hguard⟩) (hf r)
  · intro hrow r' hr' hid
    obtain ⟨r₀, hr₀, rfl⟩ := List.mem_map.mp hr'
    have hid₀ : r₀.id = r.id := by
      split at hid
      · exact (hf r₀).symm.trans hid
      · exact hid
    obtain rfl := db.alerts.eq_of_key hr₀ hr hid₀
    rw [if_pos hguard]
    exact hrow

/-- A modified alert has the lines of a new one exactly if what it keeps prints like the
values of a new one, or if the lines of the new one never fit their buffers. -/
theorem modified_lines_iff {db : AlertDB} {sql : Faults} {userId : ℤ} {m : Modification}
    {r : AlertRecord} (hr : r ∈ db.alerts.rows) (howner : r.userId = userId)
    (hlive : r.status ≠ 2) (hok : (m.run db sql r.id userId).1 = true) :
    (∀ r' ∈ (m.run db sql r.id userId).2.alerts.rows, r'.id = r.id →
      SameLines r' (m.fresh userId r'.createdAt r'.id)) ↔
      m.Clean r ∨ NeverFits (m.fresh userId r.createdAt r.id) := by
  have hguard : AlertDB.ownGuard r.id userId r :=
    AlertDB.ownGuard_iff.mpr ⟨rfl, howner, hlive⟩
  cases m with
  | price c p cond =>
      refine Iff.trans (AlertDB.updated_row hok hr hguard) ?_
      have hrest : SameRest
          { r with contract := cstr c, triggerPrice := p, condition := cond,
                   alertType := 0, status := 0 }
          (AlertDB.priceRow userId c p cond r.createdAt r.id) := ⟨rfl, rfl, rfl, rfl, rfl⟩
      refine Iff.trans (sameLines_iff hrest) (or_congr ?_ ?_)
      · refine Iff.trans ?_ timeOrDash_eq_dash
        exact ⟨fun h => (Prod.mk.inj (Prod.mk.inj h).2).2, fun h =>
          congrArg (fun t => (fmtPrice p, fmtInt cond, t)) h⟩
      · refine and_iff_right_of_imp (NeverFits.of_le hrest le_rfl le_rfl ?_)
        exact max_le_max le_rfl (Nat.zero_le _)
  | time c t =>
      refine Iff.trans (AlertDB.updated_row hok hr hguard) ?_
      have hrest : SameRest
          { r with
              contract := cstr c, triggerTime := cstr t, alertType := 1, status := 0 }
          (AlertDB.timeRow userId c t r.createdAt r.id) := ⟨rfl, rfl, rfl, rfl, rfl⟩
      have hzero : fmtPrice 0 = ascii "0.00" := by decide +kernel
      refine Iff.trans (sameLines_iff hrest) (or_congr ?_ ?_)
      · constructor
        · intro h
          obtain ⟨hprice, hother⟩ := Prod.mk.inj h
          exact ⟨hprice.trans hzero, fmtInt_injective (Prod.mk.inj hother).1⟩
        · rintro ⟨hprice, hcondition⟩
          exact Prod.ext (hprice.trans hzero.symm)
            (Prod.ext (congrArg fmtInt hcondition) rfl)
      · exact and_iff_right_of_imp
          (NeverFits.of_le hrest (priceWidth_zero_le _) (intWidth_zero_le _) le_rfl)

/-- A price alert that is moved to another price. -/
theorem moved_price_is_clean :
    let m := Modification.price (ascii "au2512") 600 condLE
    (m.run .oneAlert .none 1 1).1 = true ∧
      ∀ r' ∈ (m.run .oneAlert .none 1 1).2.alerts.rows, r'.id = 1 →
        SameLines r' (m.fresh 1 r'.createdAt r'.id) := by
  intro m
  let r := AlertDB.priceRow 1 (ascii "au2512") 500 condGE Text.empty 1
  have hr : r ∈ AlertDB.oneAlert.alerts.rows := List.mem_singleton_self _
  have hok : (m.run .oneAlert .none r.id 1).1 = true := by decide +kernel
  exact ⟨hok, (modified_lines_iff hr rfl (by decide) hok).mpr (.inl (.inl rfl))⟩

/-- A price alert that becomes a time alert: its ALERT line still shows the price. -/
theorem old_price_shows :
    ¬ ∀ (db : AlertDB) (sql : Faults) (userId : ℤ) (m : Modification),
    ∀ r ∈ db.alerts.rows,
      r.userId = userId → r.status ≠ 2 → (m.run db sql r.id userId).1 = true →
      ∀ r' ∈ (m.run db sql r.id userId).2.alerts.rows, r'.id = r.id →
        SameLines r' (m.fresh userId r'.createdAt r'.id) := by
  intro hall
  let m := Modification.time (ascii "au2512") (ascii "09:30:00")
  let r := AlertDB.priceRow 1 (ascii "au2512") 500 condGE Text.empty 1
  let r' := { r with triggerTime := cstr (ascii "09:30:00"), alertType := 1 }
  have hr' : r' ∈ (m.run .oneAlert .none r.id 1).2.alerts.rows := by decide +kernel
  have hsame := hall .oneAlert .none 1 m r (List.mem_singleton_self _) rfl (by decide)
    (by decide +kernel) r' hr' rfl
  exact absurd hsame.1 (by decide +kernel)

end CloudAlert
