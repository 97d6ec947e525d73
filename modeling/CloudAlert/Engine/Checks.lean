import CloudAlert.Server.Contracts
import CloudAlert.Server.Rows

/-!
# Single steps of a check

What `TriggerAlert` and `FireAlert` do to the world when nothing happens in
between: `triggerAlert_idle` and `triggerAlert_pending` are the two outcomes of
the first, `run_fireAlert` is the whole of the second. A row that is not pending
is left alone by every call of a check (`apply_eq_self_of_status`).
-/

namespace CloudAlert

open Program

/-! ## Alerts that are due -/

/-- The pending price alerts of `contract` that `lastPrice` satisfies. -/
def duePrice (contract : Text) (lastPrice : ℚ) (r : AlertRecord) : Bool :=
  r.status = 0 ∧ r.alertType = 0 ∧ r.contract = contract ∧
    (r.condition = 0 ∧ r.triggerPrice ≤ lastPrice ∨
      r.condition = 1 ∧ lastPrice ≤ r.triggerPrice)

/-- The pending time alerts of the time `hms`. -/
def dueTime (hms : Text) (r : AlertRecord) : Bool :=
  r.status = 0 ∧ r.alertType = 1 ∧ r.triggerTime = hms

theorem fires_iff {r : AlertRecord} {p : ℚ} :
    fires r p ↔ r.condition = 0 ∧ r.triggerPrice ≤ p ∨ r.condition = 1 ∧
    p ≤ r.triggerPrice := by
  unfold fires
  split
  · rename_i h
    exact iff_of_true rfl (.inl h)
  · rename_i h
    split
    · rename_i h'
      exact iff_of_true rfl (.inr h')
    · rename_i h'
      exact iff_of_false Bool.false_ne_true fun hor => hor.elim h h'

/-- A price alert is due when the loop of `CheckPriceAlert` fires its row. -/
theorem duePrice_iff {contract : Text} {p : ℚ} {r : AlertRecord} :
    duePrice contract p r ↔ Keyed contract r ∧ fires r p := by
  rw [fires_iff]
  simp only [duePrice, Keyed, AlertDB.pendingPrice, decide_eq_true_iff]
  tauto

theorem dueTime_iff {hms : Text} {r : AlertRecord} :
    dueTime hms r ↔ r.triggerTime = hms ∧ AlertDB.pendingTime r := by
  simp only [dueTime, AlertDB.pendingTime, decide_eq_true_iff]
  tauto

/-! ## `TriggerAlert` -/

/-- No row with this id is pending. -/
def AlertDB.NotPending (db : AlertDB) (alertId : ℤ) : Prop :=
  ∀ r ∈ db.alerts.rows, r.id = alertId → r.status ≠ 0

/-- `TriggerAlert` without a pending row fails and changes nothing. -/
theorem triggerAlert_idle {rec : AlertRecord} {ts : Text} {w : World}
    (h : w.db.NotPending rec.id) : exec (.triggerAlert rec ts) w = (false, w) := by
  have hguard : ∀ r ∈ w.db.alerts.rows,
      ¬ (decide (r.id = rec.id ∧ r.status = 0)) = true := by
    intro r hr hg
    obtain ⟨hid, hpending⟩ := of_decide_eq_true hg
    exact h r hr hid hpending
  have hanswer : (exec (.triggerAlert rec ts) w).1 = false := by
    rw [← Bool.not_eq_true, triggerAlert_true]
    rintro ⟨r, hr, hid, hpending⟩
    exact h r hr hid hpending
  have hworld : (exec (.triggerAlert rec ts) w).2 = w := by
    simp only [exec, execWith, World.store, AlertDB.triggerAlert,
      AlertDB.updateAlerts_none, Table.update_eq_self _ hguard]
  exact Prod.ext hanswer hworld

theorem triggerAlert_pending {rec r : AlertRecord} {w : World}
    (h : r ∈ w.db.alerts.rows) (hid : r.id = rec.id) (hpending : r.status = 0)
    (ts : Text) :
    (exec (.triggerAlert rec ts) w).1 = true ∧
      { r with status := 1, triggeredAt := ts } ∈
        (exec (.triggerAlert rec ts) w).2.db.alerts.rows := by
  have hguard : (Call.triggerAlert rec ts).guard r := decide_eq_true ⟨hid, hpending⟩
  have hmem := mem_alerts_after (.triggerAlert rec ts) h
  rw [Call.apply, if_pos hguard] at hmem
  exact ⟨triggerAlert_true.mpr ⟨r, h, hid, hpending⟩, hmem⟩

/-! ## `FireAlert` -/

/-- The task `FireAlert` hands to the notifier; `none` where a text does not fit
its buffer. -/
def notice (db : AlertDB) (rec : AlertRecord) (lastPrice : ℚ) (timestamp : Text) :
    Option NotifyTask :=
  match triggeredLine rec lastPrice timestamp, mailSubject rec,
    mailBody rec lastPrice timestamp with
  | some msg, some subject, some body =>
      some ⟨rec.userId, msg, db.getEmail .none rec.userId, subject, body⟩
  | _, _, _ => none

/-- The world after `Notify`. -/
def World.notified (w : World) (task : NotifyTask) : World :=
  { w with tasks := w.tasks ++ [task] }

theorem run_fireAlert (rec : AlertRecord) (p : ℚ) (ts : Text) (w : World) :
    run exec (fireAlert rec p ts) w =
      match notice w.db rec p ts with
      | some task => (true, w.notified task)
      | none => (false, w) := by
  unfold fireAlert notice
  cases triggeredLine rec p ts with
  | none => rfl
  | some msg =>
      cases mailSubject rec with
      | none => rfl
      | some subject =>
          cases mailBody rec p ts <;> rfl

@[simp] theorem fireAlert_db (rec : AlertRecord) (p : ℚ) (ts : Text) (w : World) :
    (run exec (fireAlert rec p ts) w).2.db = w.db := by
  rw [run_fireAlert]
  split <;> rfl

/-! ## The loops -/

theorem run_checkPriceLoop_cons {rec : AlertRecord} {p : ℚ} (h : fires rec p)
    (rest : List AlertRecord) (w : World) :
    run exec (checkPriceLoop p (rec :: rest)) w =
      let ts := (w.clock 0).stamp
      let out := exec (.triggerAlert rec ts) w.tickClock
      if out.1 then
        let fired := run exec (fireAlert rec p ts) (exec (.removeCached rec.id) out.2).2
        if fired.1 then run exec (checkPriceLoop p rest) fired.2 else (false, fired.2)
      else run exec (checkPriceLoop p rest) out.2 := by
  dsimp only
  rw [checkPriceLoop, if_pos h]
  change run exec (if (exec (.triggerAlert rec (w.clock 0).stamp) w.tickClock).1 = true
    then _ else _) _ = _
  split
  · change run exec (fireAlert rec p (w.clock 0).stamp >>= _) _ = _
    rw [run_bind]
    split
    · rename_i hfired
      exact (if_pos hfired).symm
    · rename_i hfired
      exact (if_neg hfired).symm
  · rfl

theorem checkPriceLoop_skip {rec : AlertRecord} {p : ℚ} (h : ¬ fires rec p)
    (rest : List AlertRecord) :
    checkPriceLoop p (rec :: rest) = checkPriceLoop p rest := by
  rw [checkPriceLoop, if_neg h]

theorem run_checkTimeLoop_cons (rec : AlertRecord) (rest : List AlertRecord) (w : World) :
    run exec (checkTimeLoop (rec :: rest)) w =
      let ts := (w.clock 0).stamp
      let out := exec (.triggerAlert rec ts) w.tickClock
      if out.1 then
        let fired := run exec
          (fireAlert rec ((out.2.lastPrices rec.contract.val).getD 0) ts) out.2
        if fired.1 then run exec (checkTimeLoop rest) fired.2 else (false, fired.2)
      else run exec (checkTimeLoop rest) out.2 := by
  dsimp only
  change run exec (if (exec (.triggerAlert rec (w.clock 0).stamp) w.tickClock).1 = true
    then _ else _) _ = _
  split
  · change run exec (fireAlert rec _ (w.clock 0).stamp >>= _) _ = _
    rw [run_bind]
    split
    · rename_i hfired
      exact (if_pos hfired).symm
    · rename_i hfired
      exact (if_neg hfired).symm
  · rfl

/-- The world after the price of a tick was stored, if it is accepted. -/
def World.priced (w : World) (contract : Text) (lastPrice : ℚ) : World :=
  if accepted lastPrice then
    { w with lastPrices := Function.update w.lastPrices contract.val (some lastPrice) }
  else w

@[simp] theorem World.priced_db (w : World) (contract : Text) (lastPrice : ℚ) :
    (w.priced contract lastPrice).db = w.db := by
  unfold World.priced
  split <;> rfl

@[simp] theorem World.priced_tasks (w : World) (contract : Text) (lastPrice : ℚ) :
    (w.priced contract lastPrice).tasks = w.tasks := by
  unfold World.priced
  split <;> rfl

@[simp] theorem World.priced_priceAlertCache (w : World) (contract : Text)
    (lastPrice : ℚ) :
    (w.priced contract lastPrice).priceAlertCache = w.priceAlertCache := by
  unfold World.priced
  split <;> rfl

/-- A tick is the loop over the cached alerts, after the price was stored. -/
theorem run_checkPriceAlert (contract : Text) (lastPrice : ℚ) (w : World) :
    run exec (checkPriceAlert contract lastPrice) w =
      run exec (checkPriceLoop lastPrice (w.priceAlertCache.at contract))
        (w.priced contract lastPrice) := by
  unfold checkPriceAlert World.priced
  split <;> rfl

/-- The calls of the check loops leave a row that is not pending alone. -/
theorem apply_eq_self_of_status {c : Call} {copy : AlertRecord → Prop} {p : ℚ}
    (hc : PriceLoopCall copy p c ∨ TimeLoopCall copy c) {r : AlertRecord}
    (hr : r.status ≠ 0) : c.apply r = r := by
  have hguard : ¬ c.guard r := by
    intro hg
    cases c <;> first
      | exact hr (of_decide_eq_true hg).2
      | exact hc.elim id id
      | cases hg
  exact if_neg hguard

end CloudAlert
