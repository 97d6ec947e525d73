import CloudAlert.Server.World

/-!
# What a call does to a row

Four calls update rows of `alerts` and two insert rows; `exec_alerts_rows` says
what the table is after any call: each row `r` becomes `c.apply r`, and the new
rows follow. `AlertEdit c r r'` lists the ways a call can change a row, with
everything the guard of its UPDATE statement checks.

Invariants of the tables are derived from these lemmas and not from `exec`.
-/

namespace CloudAlert

/-! ## Alert rows -/

/-- The WHERE clause of the UPDATE statement on `alerts` the call runs. -/
def Call.guard : Call → AlertRecord → Bool
  | .deleteAlert id uid, r => AlertDB.ownGuard id uid r
  | .modifyPriceAlert id uid _ _ _, r => AlertDB.ownGuard id uid r
  | .modifyTimeAlert id uid _ _, r => AlertDB.ownGuard id uid r
  | .triggerAlert rec _, r => r.id = rec.id ∧ r.status = 0
  | _, _ => false

/-- The SET clause of that statement. -/
def Call.edit : Call → AlertRecord → AlertRecord
  | .deleteAlert _ _, r => { r with status := 2 }
  | .modifyPriceAlert _ _ c p cond, r =>
      { r with contract := cstr c, triggerPrice := p, condition := cond,
               alertType := 0, status := 0 }
  | .modifyTimeAlert _ _ c t, r =>
      { r with contract := cstr c, triggerTime := cstr t, alertType := 1, status := 0 }
  | .triggerAlert _ ts, r => { r with status := 1, triggeredAt := ts }
  | _, r => r

/-- The row after the call. -/
def Call.apply (c : Call) (r : AlertRecord) : AlertRecord :=
  if c.guard r then c.edit r else r

/-- The rows the call inserts into `alerts`. -/
def Call.newRows (c : Call) (w : World) : List AlertRecord :=
  match c with
  | .addPriceAlert uid c p cond =>
      [AlertDB.priceRow uid c p cond (w.clock 0).stamp (w.db.alerts.seq + 1)]
  | .addTimeAlert uid c t =>
      [AlertDB.timeRow uid c t (w.clock 0).stamp (w.db.alerts.seq + 1)]
  | _ => []

namespace AlertDB

variable (db : AlertDB) {guard : AlertRecord → Bool} {f : AlertRecord → AlertRecord}
  {hf : ∀ r, (f r).id = r.id}

@[simp] theorem updateAlerts_none :
    db.updateAlerts .none guard f hf =
      (decide (0 < db.alerts.changes guard),
        { db with alerts := db.alerts.update guard f hf }) := by
  simp [updateAlerts]

theorem updateAlerts_true :
    (db.updateAlerts .none guard f hf).1 = true ↔ ∃ r ∈ db.alerts.rows, guard r := by
  rw [updateAlerts_none, decide_eq_true_iff, Table.changes_pos]

/-- An UPDATE that changes no row changes nothing. -/
theorem updateAlerts_of_not_true (h : ¬ (db.updateAlerts .none guard f hf).1 = true) :
    (db.updateAlerts .none guard f hf).2 = db := by
  rw [updateAlerts_true] at h
  push Not at h
  rw [updateAlerts_none, Table.update_eq_self _ h]

theorem ownGuard_iff {id uid : ℤ} {r : AlertRecord} :
    ownGuard id uid r = true ↔ r.id = id ∧ r.userId = uid ∧ r.status ≠ 2 := by
  simp [ownGuard]

theorem setEmail_none (uid : ℤ) (e : Bytes) :
    db.setEmail .none uid e =
      (true, db.updateUser uid id fun _ => cstr e) := by
  simp [setEmail]

end AlertDB

/-- How a call can change a row. -/
inductive AlertEdit : Call → AlertRecord → AlertRecord → Prop where
  | trigger {rec : AlertRecord} {ts : Text} {r : AlertRecord} (hid : r.id = rec.id)
      (hpending : r.status = 0) :
      AlertEdit (.triggerAlert rec ts) r { r with status := 1, triggeredAt := ts }
  | delete {id uid : ℤ} {r : AlertRecord} (hid : r.id = id) (howner : r.userId = uid)
      (hlive : r.status ≠ 2) :
      AlertEdit (.deleteAlert id uid) r { r with status := 2 }
  | modifyPrice {id uid : ℤ} {c : Bytes} {p : ℚ} {cond : ℤ} {r : AlertRecord}
      (hid : r.id = id) (howner : r.userId = uid) (hlive : r.status ≠ 2) :
      AlertEdit (.modifyPriceAlert id uid c p cond) r
        { r with contract := cstr c, triggerPrice := p, condition := cond,
                 alertType := 0, status := 0 }
  | modifyTime {id uid : ℤ} {c t : Bytes} {r : AlertRecord}
      (hid : r.id = id) (howner : r.userId = uid) (hlive : r.status ≠ 2) :
      AlertEdit (.modifyTimeAlert id uid c t) r
        { r with contract := cstr c, triggerTime := cstr t, alertType := 1,
                 status := 0 }

/-- A guarded row is edited in one of the four ways. -/
theorem alertEdit_of_guard {c : Call} {r : AlertRecord} (h : c.guard r) :
    AlertEdit c r (c.apply r) := by
  rw [Call.apply, if_pos h]
  cases c with
  | deleteAlert id uid =>
      obtain ⟨hid, howner, hlive⟩ := AlertDB.ownGuard_iff.mp h
      exact .delete hid howner hlive
  | modifyPriceAlert id uid c p cond =>
      obtain ⟨hid, howner, hlive⟩ := AlertDB.ownGuard_iff.mp h
      exact .modifyPrice hid howner hlive
  | modifyTimeAlert id uid c t =>
      obtain ⟨hid, howner, hlive⟩ := AlertDB.ownGuard_iff.mp h
      exact .modifyTime hid howner hlive
  | triggerAlert rec ts =>
      obtain ⟨hid, hpending⟩ := of_decide_eq_true h
      exact .trigger hid hpending
  | _ => cases h

/-- A call leaves a row as it is or edits it in one of the four ways. -/
theorem apply_eq_or_edit (c : Call) (r : AlertRecord) :
    c.apply r = r ∨ AlertEdit c r (c.apply r) := by
  by_cases h : c.guard r
  · exact .inr (alertEdit_of_guard h)
  · exact .inl (if_neg h)

theorem apply_fixed (c : Call) (r : AlertRecord) :
    (c.apply r).id = r.id ∧ (c.apply r).userId = r.userId ∧
      (c.apply r).createdAt = r.createdAt := by
  rcases apply_eq_or_edit c r with h | h
  · simp [h]
  · generalize c.apply r = r' at h
    cases h <;> exact ⟨rfl, rfl, rfl⟩

@[simp] theorem apply_id (c : Call) (r : AlertRecord) : (c.apply r).id = r.id :=
  (apply_fixed c r).1

@[simp] theorem apply_userId (c : Call) (r : AlertRecord) :
    (c.apply r).userId = r.userId := (apply_fixed c r).2.1

theorem exec_alerts_rows (c : Call) (w : World) :
    (exec c w).2.db.alerts.rows = w.db.alerts.rows.map c.apply ++ c.newRows w := by
  have hsame : ∀ rows : List AlertRecord, rows = rows.map (fun r => r) ++ [] := by
    simp
  cases c with
  | registerUser u p e =>
      refine Eq.trans ?_ (hsame _)
      simp only [exec, execWith, World.store, AlertDB.registerUser]
      repeat' split
      all_goals rfl
  | setEmail uid e =>
      simp only [exec, execWith, World.store, AlertDB.setEmail_none]
      exact hsame _
  | addPriceAlert uid c p cond =>
      simp only [exec, execWith, World.store, AlertDB.addPriceAlert]
      exact congrArg (· ++ _) (List.map_id _).symm
  | addTimeAlert uid c t =>
      simp only [exec, execWith, World.store, AlertDB.addTimeAlert]
      exact congrArg (· ++ _) (List.map_id _).symm
  | deleteAlert id uid =>
      simp only [exec, execWith, World.store, AlertDB.deleteAlert,
        AlertDB.updateAlerts_none]
      exact (List.append_nil _).symm
  | modifyPriceAlert id uid c p cond =>
      simp only [exec, execWith, World.store, AlertDB.modifyPriceAlert,
        AlertDB.updateAlerts_none]
      exact (List.append_nil _).symm
  | modifyTimeAlert id uid c t =>
      simp only [exec, execWith, World.store, AlertDB.modifyTimeAlert,
        AlertDB.updateAlerts_none]
      exact (List.append_nil _).symm
  | triggerAlert rec ts =>
      simp only [exec, execWith, World.store, AlertDB.triggerAlert,
        AlertDB.updateAlerts_none]
      exact (List.append_nil _).symm
  | unregisterSocket uid sock =>
      refine Eq.trans ?_ (hsame _)
      simp only [exec, execWith]
      split <;> rfl
  | subscribe c =>
      refine Eq.trans ?_ (hsame _)
      simp only [exec, execWith]
      split <;> rfl
  | _ => exact hsame _

/-- The calls that write to `alerts`. -/
def Call.writesAlerts : Call → Prop
  | .addPriceAlert _ _ _ _ | .addTimeAlert _ _ _ | .deleteAlert _ _ => True
  | .modifyPriceAlert _ _ _ _ _ | .modifyTimeAlert _ _ _ _ | .triggerAlert _ _ => True
  | _ => False

/-- The calls that add or modify an alert. -/
def Call.arms : Call → Prop
  | .addPriceAlert _ _ _ _ | .addTimeAlert _ _ _ => True
  | .modifyPriceAlert _ _ _ _ _ | .modifyTimeAlert _ _ _ _ => True
  | _ => False

/-- The calls outside `writesAlerts` leave `alerts` as it is. -/
theorem exec_alerts_of_not_writes {c : Call} (h : ¬ c.writesAlerts) (w : World) :
    (exec c w).2.db.alerts = w.db.alerts := by
  cases c with
  | addPriceAlert | addTimeAlert | deleteAlert => exact absurd trivial h
  | modifyPriceAlert | modifyTimeAlert | triggerAlert => exact absurd trivial h
  | registerUser u p e =>
      simp only [exec, execWith, World.store, AlertDB.registerUser]
      repeat' split
      all_goals rfl
  | setEmail uid e =>
      simp only [exec, execWith, World.store, AlertDB.setEmail_none]
      rfl
  | unregisterSocket uid sock =>
      simp only [exec, execWith]
      split <;> rfl
  | subscribe c =>
      simp only [exec, execWith]
      split <;> rfl
  | _ => rfl

/-- A row before a call is there after it, as `apply` makes it. -/
theorem mem_alerts_after (c : Call) {w : World} {r : AlertRecord}
    (h : r ∈ w.db.alerts.rows) : c.apply r ∈ (exec c w).2.db.alerts.rows := by
  rw [exec_alerts_rows]
  exact List.mem_append_left _ (List.mem_map_of_mem h)

/-- A row after a call comes from one before it or is new. -/
theorem mem_alerts_before (c : Call) {w : World} {r' : AlertRecord}
    (h : r' ∈ (exec c w).2.db.alerts.rows) :
    (∃ r ∈ w.db.alerts.rows, r' = c.apply r) ∨ r' ∈ c.newRows w := by
  rw [exec_alerts_rows, List.mem_append, List.mem_map] at h
  rcases h with ⟨r, hr, rfl⟩ | h
  · exact .inl ⟨r, hr, rfl⟩
  · exact .inr h

/-- `TriggerAlert` succeeds exactly when the row is pending. -/
theorem triggerAlert_true {rec : AlertRecord} {ts : Text} {w : World} :
    (exec (.triggerAlert rec ts) w).1 = true ↔
      ∃ r ∈ w.db.alerts.rows, r.id = rec.id ∧ r.status = 0 := by
  change (w.db.triggerAlert .none rec.id ts).1 = true ↔ _
  rw [AlertDB.triggerAlert, AlertDB.updateAlerts_true]
  simp only [decide_eq_true_iff]

theorem deleteAlert_true {id uid : ℤ} {w : World} :
    (exec (.deleteAlert id uid) w).1 = true ↔
      ∃ r ∈ w.db.alerts.rows, r.id = id ∧ r.userId = uid ∧ r.status ≠ 2 := by
  change (w.db.deleteAlert .none id uid).1 = true ↔ _
  rw [AlertDB.deleteAlert, AlertDB.updateAlerts_true]
  simp only [AlertDB.ownGuard_iff]

theorem modifyPriceAlert_true {id uid : ℤ} {c : Bytes} {p : ℚ} {cond : ℤ} {w : World} :
    (exec (.modifyPriceAlert id uid c p cond) w).1 = true ↔
      ∃ r ∈ w.db.alerts.rows, r.id = id ∧ r.userId = uid ∧ r.status ≠ 2 := by
  change (w.db.modifyPriceAlert .none id uid c p cond).1 = true ↔ _
  rw [AlertDB.modifyPriceAlert, AlertDB.updateAlerts_true]
  simp only [AlertDB.ownGuard_iff]

theorem modifyTimeAlert_true {id uid : ℤ} {c t : Bytes} {w : World} :
    (exec (.modifyTimeAlert id uid c t) w).1 = true ↔
      ∃ r ∈ w.db.alerts.rows, r.id = id ∧ r.userId = uid ∧ r.status ≠ 2 := by
  change (w.db.modifyTimeAlert .none id uid c t).1 = true ↔ _
  rw [AlertDB.modifyTimeAlert, AlertDB.updateAlerts_true]
  simp only [AlertDB.ownGuard_iff]

end CloudAlert
