import CloudAlert.Server.Contracts
import CloudAlert.Server.Failures

/-!
# Stored tables

`Stored db` says that calls of the server lead from a new database to `db`, in any order
and under any failures of SQLite. What every new row has and every edit of a row keeps,
every row of a stored table has (`Stored.alerts_rows`); `StoredRow` collects what the
client relies on.
-/

namespace CloudAlert

/-- The handlers have checked the condition that they pass on. -/
def Call.Checked : Call → Prop
  | .addPriceAlert _ _ _ cond => cond = condGE ∨ cond = condLE
  | .modifyPriceAlert _ _ _ _ cond => cond = condGE ∨ cond = condLE
  | _ => True

/-- The tables that calls of the server lead to. -/
inductive AlertDB.Stored : AlertDB → Prop where
  | created : Stored .created
  | call {w : World} (h : Stored w.db) (sql : Faults) (c : Call) (hc : c.Checked) :
      Stored (execWith sql c w).2.db

namespace AlertDB

variable (db : AlertDB) (sql : Faults)

theorem insertAlert_alerts (mk : ℤ → AlertRecord) (hmk : ∀ id, (mk id).id = id) :
    (db.insertAlert sql mk hmk).2.alerts = db.alerts ∨
      (db.insertAlert sql mk hmk).2.alerts = (db.insertAlert .none mk hmk).2.alerts := by
  by_cases h : sql.Succeeds
  · exact .inr (by rw [insertAlert_of_succeeds db sql h]; rfl)
  · exact .inl (by rw [insertAlert_of_fails db sql h])

theorem updateAlerts_alerts (guard : AlertRecord → Bool) (f : AlertRecord → AlertRecord)
    (hf : ∀ r, (f r).id = r.id) :
    (db.updateAlerts sql guard f hf).2.alerts = db.alerts ∨
      (db.updateAlerts sql guard f hf).2.alerts =
      (db.updateAlerts .none guard f hf).2.alerts := by
  by_cases h : sql.Succeeds
  · exact .inr (by rw [updateAlerts_of_succeeds db sql h])
  · exact .inl (by rw [updateAlerts_of_fails db sql h])

theorem registerUser_alerts (u p e : Bytes) :
    (db.registerUser sql u p e).2.alerts = db.alerts := by
  unfold registerUser
  dsimp only
  repeat' split
  all_goals rfl

theorem setEmail_alerts (uid : ℤ) (e : Bytes) :
    (db.setEmail sql uid e).2.alerts = db.alerts := by
  unfold setEmail
  repeat' split
  all_goals rfl

end AlertDB

/-- A call under failures leaves `alerts` as it is, or as it does without failures. -/
theorem execWith_alerts (sql : Faults) (c : Call) (w : World) :
    (execWith sql c w).2.db.alerts = w.db.alerts ∨
      (execWith sql c w).2.db.alerts = (exec c w).2.db.alerts := by
  cases c with
  | registerUser u p e => exact .inl (w.db.registerUser_alerts sql u p e)
  | setEmail uid e => exact .inl (w.db.setEmail_alerts sql uid e)
  | addPriceAlert | addTimeAlert => exact w.db.insertAlert_alerts sql _ _
  | deleteAlert | modifyPriceAlert | modifyTimeAlert | triggerAlert =>
      exact w.db.updateAlerts_alerts sql _ _ _
  | unregisterSocket uid sock =>
      simp only [execWith]
      split <;> exact .inl rfl
  | subscribe c =>
      simp only [execWith]
      split <;> exact .inl rfl
  | _ => exact .inl rfl

/-- What every new row has and every edit keeps, every stored row has. -/
theorem AlertDB.Stored.alerts_rows {P : AlertRecord → Prop}
    (hnew : ∀ (c : Call) (w : World), c.Checked → ∀ r ∈ c.newRows w, P r)
    (hedit : ∀ (c : Call) (r r' : AlertRecord), c.Checked → AlertEdit c r r' → P r → P r')
    {db : AlertDB} (h : db.Stored) : ∀ r ∈ db.alerts.rows, P r := by
  induction h with
  | created => exact List.forall_mem_nil _
  | @call w _ sql c hc ih =>
      rcases execWith_alerts sql c w with hsame | hdone
      · rw [hsame]
        exact ih
      · rw [hdone]
        intro r' hr'
        rcases mem_alerts_before c hr' with ⟨r, hr, rfl⟩ | hinserted
        · rcases apply_eq_or_edit c r with hkept | hchanged
          · rw [hkept]
            exact ih r hr
          · exact hedit c r _ hc hchanged (ih r hr)
        · exact hnew c w hc r' hinserted

/-- What the server keeps of every alert. -/
structure StoredRow (r : AlertRecord) : Prop where
  id : 0 < r.id
  alertType : r.alertType = alertTypePrice ∨ r.alertType = alertTypeTime
  condition : r.condition = condGE ∨ r.condition = condLE
  status : r.status = 0 ∨ r.status = 1 ∨ r.status = 2
  createdAt : ∃ now : LocalTime, r.createdAt = now.stamp

theorem storedRow_new {c : Call} {w : World} (hc : c.Checked) :
    ∀ r ∈ c.newRows w, StoredRow r := by
  have hid : 0 < w.db.alerts.seq + 1 := Int.lt_add_one_of_le w.db.alerts.seq_nonneg
  cases c with
  | addPriceAlert uid contract p cond =>
      exact List.forall_mem_singleton.mpr ⟨hid, .inl rfl, hc, .inl rfl, w.clock 0, rfl⟩
  | addTimeAlert uid contract t =>
      exact List.forall_mem_singleton.mpr ⟨hid, .inr rfl, .inl rfl,
        .inl rfl, w.clock 0, rfl⟩
  | _ => exact List.forall_mem_nil _

theorem StoredRow.edit {c : Call} {r r' : AlertRecord} (h : StoredRow r) (hc : c.Checked)
    (hedit : AlertEdit c r r') : StoredRow r' := by
  cases hedit with
  | trigger => exact ⟨h.id, h.alertType, h.condition, .inr (.inl rfl), h.createdAt⟩
  | delete => exact ⟨h.id, h.alertType, h.condition, .inr (.inr rfl), h.createdAt⟩
  | modifyPrice => exact ⟨h.id, .inl rfl, hc, .inl rfl, h.createdAt⟩
  | modifyTime => exact ⟨h.id, .inr rfl, h.condition, .inl rfl, h.createdAt⟩

theorem AlertDB.Stored.storedRow {db : AlertDB} (h : db.Stored) :
    ∀ r ∈ db.alerts.rows, StoredRow r :=
  h.alerts_rows (fun _ _ hc => storedRow_new hc) fun _ _ _ hc hedit hr => hr.edit hc hedit

end CloudAlert
