import CloudAlert.Table.Basic
import CloudAlert.Text.Format

/-!
# The alert database

`AlertDB` is the content of the two SQLite tables and the methods of the class
of that name. Each method holds the database lock for its whole body, so it is
one function of the tables. A method returns what the source returns, together
with the tables after the call when it writes.

`Faults` says which `sqlite3_prepare_v2` and `sqlite3_step` calls of one method
call fail. A failed call has no effect. `Faults.none` is the outcome in which
every statement does what SQL says it does.

Row ids are integers, and the `(int)` conversions of the source are the
identity on them: this is the case below 2^31 rows.
-/

namespace CloudAlert

/-! ## Rows -/

/-- A row of `users`. -/
structure UserRow where
  id : ℤ
  username : Text
  password : Text
  email : Text
deriving DecidableEq

/-- A row of `alerts`, and the `AlertRecord` that `RowToRecord` makes of it. -/
structure AlertRecord where
  id : ℤ
  userId : ℤ
  alertType : ℤ      -- 0 = price, 1 = time
  condition : ℤ      -- 0: >=, 1: <=
  status : ℤ         -- 0 = pending, 1 = triggered, 2 = deleted
  contract : Text
  triggerTime : Text
  createdAt : Text
  triggeredAt : Text
  triggerPrice : ℚ
deriving DecidableEq

/-- The two tables. `username` is declared `UNIQUE`. -/
structure AlertDB where
  users : Table UserRow UserRow.id
  alerts : Table AlertRecord AlertRecord.id
  unique : (users.rows.map UserRow.username).Nodup

/-! ## Outcomes of the SQLite calls -/

/-- Which SQLite calls of one method call fail: its `n`-th prepare, its `n`-th
step. -/
structure Faults where
  prepare : ℕ → Bool
  step : ℕ → Bool

namespace Faults

/-- Nothing fails. -/
def none : Faults := ⟨fun _ => false, fun _ => false⟩

variable {ρ : Type*} (sql : Faults)

/-- The row `if (sqlite3_step(stmt) == SQLITE_ROW)` sees. -/
def firstRow (n : ℕ) (rows : List ρ) : Option ρ :=
  if sql.step n then Option.none else rows.head?

/-- The rows `while (sqlite3_step(stmt) == SQLITE_ROW)` sees: a failed step ends
the loop. -/
def fetch : ℕ → List ρ → List ρ
  | _, [] => []
  | n, r :: rs => if sql.step n then [] else r :: fetch (n + 1) rs

/-- The rows a query method returns. -/
def query (rows : List ρ) : List ρ :=
  if sql.prepare 0 then [] else sql.fetch 0 rows

@[simp] theorem none_prepare (n : ℕ) : none.prepare n = false := rfl

@[simp] theorem none_step (n : ℕ) : none.step n = false := rfl

@[simp] theorem none_firstRow (n : ℕ) (rows : List ρ) :
    none.firstRow n rows = rows.head? := rfl

@[simp] theorem none_fetch (n : ℕ) (rows : List ρ) : none.fetch n rows = rows := by
  induction rows generalizing n with
  | nil => rfl
  | cons r rs ih => simp [fetch, ih]

@[simp] theorem none_query (rows : List ρ) : none.query rows = rows := by
  simp [query]

end Faults

namespace AlertDB

/-- `CreateTables` on a new database file. -/
def created : AlertDB := ⟨.empty, .empty, .nil⟩

variable (db : AlertDB) (sql : Faults)

/-! ## Users -/

/-- `SELECT ... FROM users WHERE username=?`. -/
def selectUsername (username : Bytes) : List UserRow :=
  db.users.select fun r => r.username = cstr username

/-- `UPDATE users SET password=..., email=... WHERE id=?`. -/
def updateUser (userId : ℤ) (password email : Text → Text) : AlertDB where
  users := db.users.update (fun r => r.id = userId)
    (fun r => { r with password := password r.password, email := email r.email })
    fun _ => rfl
  alerts := db.alerts
  unique := by
    rw [Table.map_update]
    · exact db.unique
    · exact fun _ => rfl

/-- `INSERT INTO users (username, password, email)` of a new username. -/
def insertUser (username password email : Text)
    (hnew : username ∉ db.users.rows.map UserRow.username) : AlertDB where
  users := db.users.insert (fun id => ⟨id, username, password, email⟩) fun _ => rfl
  alerts := db.alerts
  unique := by
    rw [Table.insert_rows, List.map_append, List.map_singleton]
    refine db.unique.append (List.nodup_singleton _) ?_
    intro name h h'
    obtain rfl : name = username := List.mem_singleton.mp h'
    exact hnew h

/-- `AlertDB::RegisterUser`. -/
def registerUser (username password email : Bytes) : ℤ × AlertDB :=
  if sql.prepare 0 then (-1, db)
  else
    let found := sql.firstRow 0 (db.selectUsername username)
    let existId := (found.map UserRow.id).getD (-1)
    let existPwd := (found.map UserRow.password).getD Text.empty
    if 0 ≤ existId then
      if existPwd ≠ Text.empty then (-1, db)
      else if sql.prepare 1 then (-1, db)
      -- the result of this step is not looked at
      else if sql.step 1 then (existId, db)
      else (existId,
        db.updateUser existId (fun _ => cstr password) fun _ => cstr email)
    else if sql.prepare 1 then (-1, db)
    else if sql.step 1 then (-1, db)
    else if h : cstr username ∈ db.users.rows.map UserRow.username then (-1, db)
    else (db.users.seq + 1,
      db.insertUser (cstr username) (cstr password) (cstr email) h)

/-- `AlertDB::VerifyLogin`. -/
def verifyLogin (username password : Bytes) : ℤ :=
  if sql.prepare 0 then -1
  else
    match sql.firstRow 0 (db.selectUsername username) with
    | some r => if r.password.val = password then r.id else -1
    | none => -1

/-- `AlertDB::SetEmail`. -/
def setEmail (userId : ℤ) (email : Bytes) : Bool × AlertDB :=
  if sql.prepare 0 then (false, db)
  else if sql.step 0 then (false, db)
  else (true, db.updateUser userId id fun _ => cstr email)

/-- `AlertDB::GetEmail`. -/
def getEmail (userId : ℤ) : Text :=
  if sql.prepare 0 then Text.empty
  else
    match sql.firstRow 0 (db.users.select fun r => r.id = userId) with
    | some r => r.email
    | none => Text.empty

/-! ## Alerts -/

/-- An `INSERT INTO alerts`: the new id, or -1. -/
def insertAlert (mk : ℤ → AlertRecord) (hmk : ∀ id, (mk id).id = id) : ℤ × AlertDB :=
  if sql.prepare 0 then (-1, db)
  else if sql.step 0 then (-1, db)
  else (db.alerts.seq + 1, { db with alerts := db.alerts.insert mk hmk })

/-- An `UPDATE alerts ... WHERE`: whether it changed a row. -/
def updateAlerts (guard : AlertRecord → Bool) (f : AlertRecord → AlertRecord)
    (hf : ∀ r, (f r).id = r.id) : Bool × AlertDB :=
  if sql.prepare 0 then (false, db)
  else if sql.step 0 then (false, db)
  else (decide (0 < db.alerts.changes guard),
    { db with alerts := db.alerts.update guard f hf })

/-- The row `AddPriceAlert` inserts. -/
def priceRow (userId : ℤ) (contract : Bytes) (price : ℚ) (condition : ℤ) (ts : Text)
    (id : ℤ) : AlertRecord :=
  { id, userId, alertType := 0, contract := cstr contract, triggerPrice := price,
    condition, triggerTime := Text.empty, status := 0, createdAt := ts,
    triggeredAt := Text.empty }

/-- `AlertDB::AddPriceAlert`; `ts` is the `CurrentTimestamp()` it reads. -/
def addPriceAlert (userId : ℤ) (contract : Bytes) (price : ℚ) (condition : ℤ)
    (ts : Text) : ℤ × AlertDB :=
  db.insertAlert sql (priceRow userId contract price condition ts) fun _ => rfl

/-- The row `AddTimeAlert` inserts. -/
def timeRow (userId : ℤ) (contract time : Bytes) (ts : Text) (id : ℤ) : AlertRecord :=
  { id, userId, alertType := 1, contract := cstr contract, triggerPrice := 0,
    condition := 0, triggerTime := cstr time, status := 0, createdAt := ts,
    triggeredAt := Text.empty }

/-- `AlertDB::AddTimeAlert`; `ts` is the `CurrentTimestamp()` it reads. -/
def addTimeAlert (userId : ℤ) (contract time : Bytes) (ts : Text) : ℤ × AlertDB :=
  db.insertAlert sql (timeRow userId contract time ts) fun _ => rfl

/-- `WHERE id=? AND user_id=? AND status!=2`. -/
def ownGuard (alertId userId : ℤ) (r : AlertRecord) : Bool :=
  r.id = alertId ∧ r.userId = userId ∧ r.status ≠ 2

/-- `AlertDB::DeleteAlert`. -/
def deleteAlert (alertId userId : ℤ) : Bool × AlertDB :=
  db.updateAlerts sql (ownGuard alertId userId)
    (fun r => { r with status := 2 }) fun _ => rfl

/-- `AlertDB::ModifyPriceAlert`. -/
def modifyPriceAlert (alertId userId : ℤ) (contract : Bytes) (price : ℚ)
    (cond : ℤ) : Bool × AlertDB :=
  db.updateAlerts sql (ownGuard alertId userId)
    (fun r => { r with contract := cstr contract, triggerPrice := price,
                       condition := cond, alertType := 0, status := 0 })
    fun _ => rfl

/-- `AlertDB::ModifyTimeAlert`. -/
def modifyTimeAlert (alertId userId : ℤ) (contract time : Bytes) : Bool × AlertDB :=
  db.updateAlerts sql (ownGuard alertId userId)
    (fun r => { r with contract := cstr contract, triggerTime := cstr time,
                       alertType := 1, status := 0 })
    fun _ => rfl

/-- `AlertDB::TriggerAlert`. -/
def triggerAlert (alertId : ℤ) (triggeredAt : Text) : Bool × AlertDB :=
  db.updateAlerts sql (fun r => r.id = alertId ∧ r.status = 0)
    (fun r => { r with status := 1, triggeredAt }) fun _ => rfl

/-! ## Queries -/

/-- `AlertDB::QueryAlerts`. -/
def queryAlerts (userId status : ℤ) : List AlertRecord :=
  if status = -1 then
    sql.query (db.alerts.select fun r => r.userId = userId)
  else
    sql.query (db.alerts.select fun r => r.userId = userId ∧ r.status = status)

/-- `status=0 AND alert_type=0`. -/
def pendingPrice (r : AlertRecord) : Bool := r.status = 0 ∧ r.alertType = 0

/-- `status=0 AND alert_type=1`. -/
def pendingTime (r : AlertRecord) : Bool := r.status = 0 ∧ r.alertType = 1

/-- `AlertDB::GetPendingPriceAlerts`. -/
def getPendingPriceAlerts (contract : Text) : List AlertRecord :=
  sql.query (db.alerts.select fun r => pendingPrice r ∧ r.contract = contract)

/-- `AlertDB::GetPendingTimeAlerts`. -/
def getPendingTimeAlerts (time : Text) : List AlertRecord :=
  sql.query (db.alerts.select fun r => pendingTime r ∧ r.triggerTime = time)

/-- `AlertDB::GetPendingContracts`. -/
def getPendingContracts : List Text :=
  sql.query ((db.alerts.select fun r => r.status = 0).map AlertRecord.contract).eraseDups

end AlertDB

end CloudAlert
