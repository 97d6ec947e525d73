import CloudAlert.Client.Validate
import CloudAlert.Engine.Coherence
import CloudAlert.Server.History
import CloudAlert.Server.Rows
import CloudAlert.Session.Commands
import CloudAlert.Text.Double

/-!
# Alerts that can fire

A pending alert should have a price, or a time of day, at which it fires. The server does
not check the price and the time it is given, so it accepts alerts that never fire.
`ArmsDead` are the lines by which such an alert gets into the table; a history without
them keeps every pending alert alive (`alerts_can_fire`).

The column of the price is a double: 1e-400 is stored as 0, and a hundred nines as 1e100.
So the bounds are those of the nearest double, and the price that fires an alert fires it
with its price as a double too.
-/

namespace CloudAlert

open Program

/-! ## Alive rows -/

/-- The alert as its row has it, with the price as a double. -/
def AlertRecord.withDouble (r : AlertRecord) : AlertRecord :=
  { r with triggerPrice := toDouble r.triggerPrice }

/-- If the alert is pending, some accepted price or some time of day fires it. -/
structure CanFire (r : AlertRecord) : Prop where
  price : AlertDB.pendingPrice r → (r.condition = condGE ∨ r.condition = condLE) ∧
    ∃ p, accepted p ∧ fires r p ∧ fires r.withDouble p
  time : AlertDB.pendingTime r → ∃ t : LocalTime, r.triggerTime = t.hms

/-- Every pending alert can fire. -/
def AllCanFire (db : AlertDB) : Prop := ∀ r ∈ db.alerts.rows, CanFire r

theorem allCanFire_created : AllCanFire .created := List.forall_mem_nil _

theorem canFire_of_not_pending {r : AlertRecord} (h : r.status ≠ 0) : CanFire r where
  price hpending := absurd (of_decide_eq_true hpending).1 h
  time hpending := absurd (of_decide_eq_true hpending).1 h

theorem fires_of_le {r : AlertRecord} {p : ℚ} (hcond : r.condition = condGE)
    (h : r.triggerPrice ≤ p) : fires r p :=
  if_pos ⟨hcond, h⟩

theorem fires_of_ge {r : AlertRecord} {p : ℚ} (hcond : r.condition = condLE)
    (h : p ≤ r.triggerPrice) : fires r p := by
  have hother : ¬ (r.condition = condGE ∧ r.triggerPrice ≤ p) :=
    fun hge => absurd (hge.1.symm.trans hcond) (by decide)
  rw [fires, if_neg hother, if_pos ⟨hcond, h⟩]

/-- A price alert that some accepted price satisfies. -/
theorem canFire_of_price {r : AlertRecord} (htype : r.alertType = 0)
    (h : r.condition = condGE ∧ toDouble r.triggerPrice < 10 ^ 100 ∨
      r.condition = condLE ∧ 0 < toDouble r.triggerPrice) : CanFire r where
  price _ := by
    rcases h with ⟨hcond, hlt⟩ | ⟨hcond, hpos⟩
    · have hexact : r.triggerPrice < 10 ^ 100 :=
        lt_of_not_ge fun hlarge => absurd hlt (not_lt.mpr (toDouble_of_large hlarge))
      refine ⟨.inl hcond, max 1 (max r.triggerPrice (toDouble r.triggerPrice)), ?_, ?_,
        ?_⟩
      · exact decide_eq_true
          ⟨lt_max_of_lt_left one_pos, max_lt (by norm_num) (max_lt hexact hlt)⟩
      · exact fires_of_le hcond ((le_max_left _ _).trans (le_max_right _ _))
      · exact fires_of_le hcond ((le_max_right _ _).trans (le_max_right _ _))
    · have hexact := pos_of_toDouble hpos
      refine ⟨.inr hcond, min 1 (min r.triggerPrice (toDouble r.triggerPrice)), ?_, ?_,
        ?_⟩
      · exact decide_eq_true
          ⟨lt_min one_pos (lt_min hexact hpos), min_lt_of_left_lt (by norm_num)⟩
      · exact fires_of_ge hcond ((min_le_right _ _).trans (min_le_left _ _))
      · exact fires_of_ge hcond ((min_le_right _ _).trans (min_le_right _ _))
  time hpending := absurd (htype.symm.trans (of_decide_eq_true hpending).2) (by decide)

theorem canFire_of_time {r : AlertRecord} (htype : r.alertType = 1)
    (h : ∃ t : LocalTime, r.triggerTime = t.hms) : CanFire r where
  price hpending := absurd (htype.symm.trans (of_decide_eq_true hpending).2) (by decide)
  time _ := h

/-! ## Calls -/

theorem AllCanFire.after {c : Call} {w : World} (h : AllCanFire w.db)
    (hnew : ∀ r ∈ c.newRows w, CanFire r)
    (hedit : ∀ r ∈ w.db.alerts.rows, c.guard r → CanFire (c.edit r)) :
    AllCanFire (exec c w).2.db := by
  intro r' hr'
  rcases mem_alerts_before c hr' with ⟨r, hr, rfl⟩ | hr'
  · rw [Call.apply]
    split
    · rename_i hguard
      exact hedit r hr hguard
    · exact h r hr
  · exact hnew r' hr'

/-- The other calls arm nothing. -/
theorem AllCanFire.after_other {c : Call} {w : World} (h : AllCanFire w.db)
    (hc : ¬ c.arms) : AllCanFire (exec c w).2.db := by
  refine h.after (fun r hr => ?_) fun r _ hguard => ?_
  · cases c with
    | addPriceAlert | addTimeAlert => exact absurd trivial hc
    | _ => cases hr
  · cases c with
    | modifyPriceAlert | modifyTimeAlert => exact absurd trivial hc
    | deleteAlert => exact canFire_of_not_pending two_ne_zero
    | triggerAlert => exact canFire_of_not_pending Int.one_ne_zero
    | _ => cases hguard

theorem AllCanFire.after_run {α : Type} {pre : Call → Prop}
    {fin : α → Prop} {p : Action α}
    (hp : p.Respects pre Answer fin) (hpre : ∀ c, pre c → ¬ c.arms) {w : World}
    (h : AllCanFire w.db) : AllCanFire (run exec p w).2.db :=
  (hp.run (fun w => AllCanFire w.db)
    (fun c w hc h => ⟨h.after_other (hpre c hc), answer_exec c w⟩) h).1

/-! ## Lines -/

/-- No accepted price satisfies the comparison with the double that is read, or the text
is no decimal numeral. -/
def DeadPrice (price : Bytes) (cond : ℤ) : Prop :=
  cond = condGE ∧ ¬ (ReadsDecimal price ∧ toDouble (atof price) < 10 ^ 100) ∨
    cond = condLE ∧ ¬ (ReadsDecimal price ∧ 0 < toDouble (atof price))

/-- The client would not send the time. -/
def DeadTime (timeStr : Bytes) : Prop := validateTimeText (cstr timeStr).val ≠ .ok ()

/-- The line is accepted and its alert never fires. -/
def ArmsDead (self : Session) (line : Bytes) (db : AlertDB) : Prop :=
  if commandWord line = ascii "ADD_PRICE" then
    match splitLine line with
    | _ :: _ :: _ :: price :: cond :: _ => 0 ≤ self.userId ∧ DeadPrice price (atoi cond)
    | _ => False
  else if commandWord line = ascii "ADD_TIME" then
    match splitLine line with
    | _ :: _ :: _ :: timeStr :: _ => 0 ≤ self.userId ∧ DeadTime timeStr
    | _ => False
  else if commandWord line = ascii "MODIFY_PRICE" then
    match splitLine line with
    | _ :: alertId :: _ :: price :: cond :: _ =>
        (0 ≤ self.userId ∧ ∃ r ∈ db.alerts.rows,
          AlertDB.ownGuard (atoi alertId) self.userId r) ∧ DeadPrice price (atoi cond)
    | _ => False
  else if commandWord line = ascii "MODIFY_TIME" then
    match splitLine line with
    | _ :: alertId :: _ :: timeStr :: _ =>
        (0 ≤ self.userId ∧ ∃ r ∈ db.alerts.rows,
          AlertDB.ownGuard (atoi alertId) self.userId r) ∧ DeadTime timeStr
    | _ => False
  else False

theorem live_of_not_deadPrice {price : Bytes} {cond : ℤ}
    (hcond : cond = condGE ∨ cond = condLE) (h : ¬ DeadPrice price cond) :
    cond = condGE ∧ toDouble (atof price) < 10 ^ 100 ∨
      cond = condLE ∧ 0 < toDouble (atof price) := by
  rcases hcond with hcond | hcond
  · refine .inl ⟨hcond, ?_⟩
    by_contra hlarge
    exact h (.inl ⟨hcond, fun hlive => hlarge hlive.2⟩)
  · refine .inr ⟨hcond, ?_⟩
    by_contra hsmall
    exact h (.inr ⟨hcond, fun hlive => hsmall hlive.2⟩)

theorem live_of_not_deadTime {timeStr : Bytes} (h : ¬ DeadTime timeStr) :
    ∃ t : LocalTime, cstr timeStr = t.hms := by
  obtain ⟨t, ht⟩ := (validateTimeText_iff _).mp (not_not.mp h)
  exact ⟨t, Subtype.ext ht.symm⟩

theorem run_ask_db {c : Call} {k : c.Ans → Handler} {w : World}
    (hk : Decided (k (exec c w).1)) :
    (run exec (ask c >>= k) w).2.db = (exec c w).2.db := by
  obtain ⟨out, hk⟩ := hk
  exact (run_ask_settled hk).2

section

variable {self : Session} {line : Bytes} {w : World}

theorem handleAddPrice_alive (h : AllCanFire w.db)
    (hword : commandWord line = ascii "ADD_PRICE") (hlive : ¬ ArmsDead self line w.db) :
    AllCanFire (run exec (handleAddPrice self line) w).2.db := by
  rw [ArmsDead, if_pos hword] at hlive
  unfold handleAddPrice
  split
  · exact h
  · rename_i hself
    split
    · rename_i htokens
      rw [htokens] at hlive
      split
      · exact h
      · rename_i hcond
        have hcond := by simpa only [ne_eq, not_and_or, not_not] using hcond
        rw [run_ask_db]
        · refine h.after (fun r hr => ?_) fun r _ hguard => by cases hguard
          obtain rfl := List.mem_singleton.mp hr
          exact canFire_of_price rfl (live_of_not_deadPrice hcond fun hdead =>
            hlive ⟨not_lt.mp hself, hdead⟩)
        · exact decided_ite (decided_ret _)
            (decided_refresh (decided_subscribe (decided_ret _)))
    · exact h

theorem handleAddTime_alive (h : AllCanFire w.db)
    (hword : commandWord line = ascii "ADD_TIME") (hlive : ¬ ArmsDead self line w.db) :
    AllCanFire (run exec (handleAddTime self line) w).2.db := by
  unfold ArmsDead at hlive
  rw [hword, if_neg (by decide), if_pos rfl] at hlive
  unfold handleAddTime
  split
  · exact h
  · rename_i hself
    split
    · rename_i htokens
      rw [htokens] at hlive
      rw [run_ask_db]
      · refine h.after (fun r hr => ?_) fun r _ hguard => by cases hguard
        obtain rfl := List.mem_singleton.mp hr
        exact canFire_of_time rfl (live_of_not_deadTime fun hdead =>
          hlive ⟨not_lt.mp hself, hdead⟩)
      · exact decided_ite (decided_ret _) (decided_subscribe (decided_ret _))
    · exact h

theorem handleModifyPrice_alive (h : AllCanFire w.db)
    (hword : commandWord line = ascii "MODIFY_PRICE")
    (hlive : ¬ ArmsDead self line w.db) :
    AllCanFire (run exec (handleModifyPrice self line) w).2.db := by
  unfold ArmsDead at hlive
  rw [hword, if_neg (by decide), if_neg (by decide), if_pos rfl] at hlive
  unfold handleModifyPrice
  split
  · exact h
  · rename_i hself
    split
    · rename_i htokens
      rw [htokens] at hlive
      split
      · exact h
      · rename_i hcond
        have hcond := by simpa only [ne_eq, not_and_or, not_not] using hcond
        rw [run_ask_db]
        · refine h.after (fun r hr => by cases hr) fun r hr hguard => ?_
          exact canFire_of_price rfl (live_of_not_deadPrice hcond fun hdead =>
            hlive ⟨⟨not_lt.mp hself, r, hr, hguard⟩, hdead⟩)
        · exact decided_ite
            (decided_refresh (decided_subscribe (decided_ret _))) (decided_ret _)
    · exact h

theorem handleModifyTime_alive (h : AllCanFire w.db)
    (hword : commandWord line = ascii "MODIFY_TIME") (hlive : ¬ ArmsDead self line w.db) :
    AllCanFire (run exec (handleModifyTime self line) w).2.db := by
  unfold ArmsDead at hlive
  rw [hword, if_neg (by decide), if_neg (by decide), if_neg (by decide),
    if_pos rfl] at hlive
  unfold handleModifyTime
  split
  · exact h
  · rename_i hself
    split
    · rename_i htokens
      rw [htokens] at hlive
      rw [run_ask_db]
      · refine h.after (fun r hr => by cases hr) fun r hr hguard => ?_
        exact canFire_of_time rfl (live_of_not_deadTime fun hdead =>
          hlive ⟨⟨not_lt.mp hself, r, hr, hguard⟩, hdead⟩)
      · exact decided_ite (decided_refresh (decided_ret _)) (decided_ret _)
    · exact h

theorem dispatch_alive (h : AllCanFire w.db) (hlive : ¬ ArmsDead self line w.db) :
    AllCanFire (run exec (dispatch self line) w).2.db := by
  by_cases haddPrice : commandWord line = ascii "ADD_PRICE"
  · rw [dispatch_addPrice haddPrice]
    exact handleAddPrice_alive h haddPrice hlive
  by_cases haddTime : commandWord line = ascii "ADD_TIME"
  · rw [dispatch_addTime haddTime]
    exact handleAddTime_alive h haddTime hlive
  by_cases hmodifyPrice : commandWord line = ascii "MODIFY_PRICE"
  · rw [dispatch_modifyPrice hmodifyPrice]
    exact handleModifyPrice_alive h hmodifyPrice hlive
  by_cases hmodifyTime : commandWord line = ascii "MODIFY_TIME"
  · rw [dispatch_modifyTime hmodifyTime]
    exact handleModifyTime_alive h hmodifyTime hlive
  refine h.after_run (dispatch_ok self line) fun c hc harms => ?_
  cases c with
  | addPriceAlert => exact haddPrice hc.1
  | addTimeAlert => exact haddTime hc.1
  | modifyPriceAlert => exact hmodifyPrice hc.1
  | modifyTimeAlert => exact hmodifyTime hc.1
  | _ => exact harms

end

/-! ## Histories -/

theorem refresh_alive {w : World} (h : AllCanFire w.db) :
    AllCanFire (run exec refreshPriceAlertCache w).2.db := by
  rw [run_refresh]
  exact h

theorem endSession_alive {w : World} (self : Session) (h : AllCanFire w.db) :
    AllCanFire (run exec (endSession self) w).2.db := by
  refine h.after_run (endSession_respects self) fun c hc harms => ?_
  cases c <;> first | exact hc | exact harms

theorem checkPriceAlert_alive {w : World} (contract : Text) (p : ℚ)
    (h : AllCanFire w.db) :
    AllCanFire (run exec (checkPriceAlert contract p) w).2.db := by
  have hcalls : (checkPriceAlert contract p).Respects
      (PriceCheckCall (fun _ => True) contract p) Answer fun _ => True :=
    checkPriceAlert_respects contract p fun _ _ _ _ => trivial
  refine h.after_run hcalls fun c hc harms => ?_
  cases c <;> first | exact hc | exact harms

theorem checkTimeAlerts_alive {w : World} (h : AllCanFire w.db) :
    AllCanFire (run exec checkTimeAlerts w).2.db := by
  change AllCanFire (run exec (checkTimeAlertsAt (w.clock 0).hms) w.tickClock).2.db
  have hclock : AllCanFire w.tickClock.db := h
  refine hclock.after_run (checkTimeAlertsAt_respects _) fun c hc harms => ?_
  cases c <;> first | exact hc | exact harms

/-- The event is no line that arms a dead alert. -/
def ArmsLive (s : Server) : Event → Prop
  | .line sock line =>
      ∀ self, s.sessions sock = some self → ¬ ArmsDead self line s.world.db
  | _ => True

theorem serve_alive {s s' : Server} {e : Event} (h : AllCanFire s.world.db)
    (hlive : ArmsLive s e) (hserve : serve exec s e = some s') :
    AllCanFire s'.world.db := by
  cases step_of_serve hserve with
  | startUp marketData => exact refresh_alive h
  | connect => exact h
  | line sock line self hself => exact dispatch_alive h (hlive self hself)
  | disconnect sock self => exact endSession_alive self h
  | tick contract p hrun =>
      have halive := checkPriceAlert_alive contract p h
      rwa [hrun] at halive
  | timerCheck hrun =>
      have halive := checkTimeAlerts_alive h
      rwa [hrun] at halive

/-- In a history in which no line arms a dead alert, every pending alert can fire, at
every point of the history. -/
theorem alerts_can_fire {db : AlertDB} {clock : ℕ → LocalTime} {history : List Event}
    (hdb : AllCanFire db)
    (hlive : ∀ es e es' s, history = es ++ e :: es' →
      serveAll exec (.off db clock) es = some s → ArmsLive s e) :
    ∀ es es' s, history = es ++ es' → serveAll exec (.off db clock) es = some s →
      AllCanFire s.world.db := by
  have hkeep : ∀ s e s', AllCanFire s.world.db → ArmsLive s e → serve exec s e = some s' →
      AllCanFire s'.world.db := fun _ _ _ h hlive hserve => serve_alive h hlive hserve
  exact serveAll_invariant_if hkeep hdb hlive

/-- A user with a price alert and a time alert. -/
def twoAlerts : List Event :=
  [.startUp true, .connect 7, .line 7 (ascii "REGISTER ann pw a@b"),
    .line 7 (ascii "LOGIN ann pw"), .line 7 (ascii "ADD_PRICE ann au2512 35e2 1"),
    .line 7 (ascii "ADD_TIME ann au2512 09:30:00")]

theorem twoAlerts_live : ∀ e ∈ twoAlerts, ∀ s, ArmsLive s e := by
  have hprice : splitLine (ascii "ADD_PRICE ann au2512 35e2 1") =
      [ascii "ADD_PRICE", ascii "ann", ascii "au2512", ascii "35e2", ascii "1"] := by
    decide
  have htime : splitLine (ascii "ADD_TIME ann au2512 09:30:00") =
      [ascii "ADD_TIME", ascii "ann", ascii "au2512", ascii "09:30:00"] := by decide
  simp only [twoAlerts, List.forall_mem_cons]
  refine ⟨fun _ => trivial, fun _ => trivial, fun s self _ => ?_, fun s self _ => ?_,
    fun s self _ => ?_, fun s self _ => ?_, List.forall_mem_nil _⟩
  · exact id
  · exact id
  · rw [ArmsDead, if_pos (by decide), hprice]
    rintro ⟨-, ⟨hcond, -⟩ | ⟨-, hprice⟩⟩
    · exact absurd hcond (by decide)
    · exact hprice (by decide +kernel)
  · unfold ArmsDead
    rw [if_neg (by decide), if_pos (by decide), htime]
    exact fun hdead => hdead.2 (by decide +kernel)

/-- Both alerts of the user can fire. -/
theorem two_alerts_can_fire :
    ∃ s, serveAll exec (.off .created fun _ => ⟨2025, 6, 0, 8, 55, 0⟩)
      twoAlerts = some s ∧
      s.world.db.alerts.rows.map AlertDB.pendingPrice = [true, false] ∧
      AllCanFire s.world.db := by
  have hstate :
      ((serveAll exec (.off .created fun _ => ⟨2025, 6, 0, 8, 55, 0⟩) twoAlerts).map
      fun s => s.world.db.alerts.rows.map AlertDB.pendingPrice) = some [true, false] := by
    decide +kernel
  obtain ⟨s, hs, hrows⟩ := Option.map_eq_some_iff.mp hstate
  refine ⟨s, hs, hrows, alerts_can_fire allCanFire_created (fun es e es' s hhist _ => ?_)
    twoAlerts [] s (List.append_nil _).symm hs⟩
  exact twoAlerts_live e (by simp [hhist]) s

/-- ADD_TIME with the time `9:30` is answered OK, and no clock reading prints so. -/
theorem short_time_never_fires :
    ¬ ∀ clock history s, serveAll exec (.off .created clock) history = some s →
      AllCanFire s.world.db := by
  intro hall
  have hstate : ((serveAll exec (.off .created fun _ => ⟨2025, 6, 0, 8, 55, 0⟩)
      [.startUp true, .connect 7, .line 7 (ascii "REGISTER ann pw a@b"),
        .line 7 (ascii "LOGIN ann pw"), .line 7 (ascii "ADD_TIME ann au2512 9:30")]).map
      fun s => s.world.db.alerts.rows.map fun r =>
        (r.status, r.alertType, r.triggerTime)) =
      some [(0, 1, cstr (ascii "9:30"))] := by decide +kernel
  obtain ⟨s, hs, hrows⟩ := Option.map_eq_some_iff.mp hstate
  obtain ⟨r, hr, hrow⟩ := List.mem_map.mp
    (hrows ▸ List.mem_singleton_self ((0 : ℤ), (1 : ℤ), cstr (ascii "9:30")))
  obtain ⟨hstatus, hrest⟩ := Prod.mk.inj hrow
  obtain ⟨htype, htime⟩ := Prod.mk.inj hrest
  obtain ⟨t, ht⟩ := (hall _ _ s hs r hr).time (decide_eq_true ⟨hstatus, htype⟩)
  have hlength := congrArg (fun t : Text => t.val.length) (htime.symm.trans ht)
  rw [t.hms_length] at hlength
  exact absurd hlength (by decide)

end CloudAlert
