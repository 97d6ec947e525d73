import CloudAlert.Program.Locks
import CloudAlert.Concurrent.Threads

/-!
# The locks of the server

`server` makes each call in one step. Here the calls are the methods as they are written:
a method takes its lock (`AlertDB::m_cs`, `m_priceMtx`, `m_alertCacheMtx`,
`Notifier::m_cs`, `m_queueCs`), makes its SQLite calls, its map lookups and its changes
one after the other, and gives the lock back. All methods of `AlertDB` share one
connection, whose `sqlite3_changes` and `sqlite3_last_insert_rowid` speak of the last
statement of whatever thread made it, and the rows of a SELECT are fetched one by one from
the table as it is at that moment; so without the lock a method could see the statements
of another.

`lockedServer` is the machine. Behind each of its runs there is one of `server`
(`lockedServer_refines`), and no thread in it is ever stuck (`lockedServer_progress`).
-/

namespace CloudAlert

open Program

/-! ## What the locks protect -/

/-- The locks. -/
inductive ServerLock where
  | db      -- `AlertDB::m_cs`
  | price   -- `AlertEngine::m_priceMtx`
  | cache   -- `AlertEngine::m_alertCacheMtx`
  | online  -- `Notifier::m_cs`
  | queue   -- `Notifier::m_queueCs`
deriving DecidableEq

/-- The connection `m_db`: the tables, and what it remembers of its last statements. -/
structure Connection where
  db : AlertDB
  changes : ℕ      -- `sqlite3_changes`
  lastRowid : ℤ    -- `sqlite3_last_insert_rowid`

/-- The SQLite calls: the step of a statement, or a question to the connection. -/
inductive Sql where
  -- `SELECT ... FROM users WHERE username=?`, `SELECT email FROM users WHERE id=?`
  | userByName (username : Bytes)
  | userById (userId : ℤ)
  -- `UPDATE users SET password=?, email=? WHERE id=?`, `UPDATE users SET email=? WHERE
  -- id=?`
  | updateUser (userId : ℤ) (password email : Text → Text)
  -- `INSERT INTO users`: whether the step is done
  | insertUser (username password email : Text)
  -- `INSERT INTO alerts`
  | insertAlert (mk : ℤ → AlertRecord) (hmk : ∀ id, (mk id).id = id)
  -- `UPDATE alerts SET ... WHERE ...`
  | updateAlerts (guard : AlertRecord → Bool) (f : AlertRecord → AlertRecord)
      (hf : ∀ r, (f r).id = r.id)
  -- the next row of a SELECT on `alerts`, after the row with the given id
  | nextAlert (selected : AlertRecord → Bool) (after : Option ℤ)
  | changes
  | lastRowid

/-- What a SQLite call gives. -/
@[reducible] def Sql.Res : Sql → Type
  | .userByName _ => Option UserRow
  | .userById _ => Option UserRow
  | .updateUser _ _ _ => Unit
  | .insertUser _ _ _ => Bool
  | .insertAlert _ _ => Unit
  | .updateAlerts _ _ _ => Unit
  | .nextAlert _ _ => Option AlertRecord
  | .changes => ℕ
  | .lastRowid => ℤ

/-- The row comes after the one with the given id. -/
def isAfter (after : Option ℤ) (r : AlertRecord) : Bool :=
  match after with
  | none => true
  | some id => id < r.id

/-- A SQLite call, none of which fails. -/
def Sql.exec : (o : Sql) → Connection → o.Res × Connection
  | .userByName username, conn => ((conn.db.selectUsername username).head?, conn)
  | .userById userId, conn => ((conn.db.users.select fun r => r.id = userId).head?, conn)
  | .updateUser userId password email, conn => ((), { conn with
      db := conn.db.updateUser userId password email
      changes := conn.db.users.changes fun r => r.id = userId })
  | .insertUser username password email, conn =>
      if h : username ∈ conn.db.users.rows.map UserRow.username then (false, conn)
      else (true, ⟨conn.db.insertUser username password email h, 1,
          conn.db.users.seq + 1⟩)
  | .insertAlert mk hmk, conn => ((), {
      db := { conn.db with alerts := conn.db.alerts.insert mk hmk }
      changes := 1
      lastRowid := conn.db.alerts.seq + 1 })
  | .updateAlerts guard f hf, conn => ((), { conn with
      db := { conn.db with alerts := conn.db.alerts.update guard f hf }
      changes := conn.db.alerts.changes guard })
  | .nextAlert selected after, conn =>
      ((conn.db.alerts.select fun r => isAfter after r && selected r).head?, conn)
  | .changes, conn => (conn.changes, conn)
  | .lastRowid, conn => (conn.lastRowid, conn)

/-- The operations under the other locks. -/
inductive PriceOp where
  | find (contract : Bytes)
  | set (contract : Text) (price : ℚ)

@[reducible] def PriceOp.Res : PriceOp → Type
  | .find _ => Option ℚ
  | .set _ _ => Unit

def PriceOp.exec : (o : PriceOp) → (Bytes → Option ℚ) → o.Res × (Bytes → Option ℚ)
  | .find contract, prices => (prices contract, prices)
  | .set contract price, prices => ((), Function.update prices contract.val (some price))

inductive CacheOp where
  | find (contract : Text)
  | swap (next : PriceAlertCache)
  | remove (alertId : ℤ)

@[reducible] def CacheOp.Res : CacheOp → Type
  | .find _ => List AlertRecord
  | .swap _ => Unit
  | .remove _ => Unit

def CacheOp.exec : (o : CacheOp) → PriceAlertCache → o.Res × PriceAlertCache
  | .find contract, cache => (cache.at contract, cache)
  | .swap next, _ => ((), next)
  | .remove alertId, cache => ((), cache.remove alertId)

inductive OnlineOp where
  | find (userId : ℤ)
  | set (userId : ℤ) (sock : Socket)
  | erase (userId : ℤ)

@[reducible] def OnlineOp.Res : OnlineOp → Type
  | .find _ => Option Socket
  | .set _ _ => Unit
  | .erase _ => Unit

def OnlineOp.exec : (o : OnlineOp) → (ℤ → Option Socket) → o.Res × (ℤ → Option Socket)
  | .find userId, sockets => (sockets userId, sockets)
  | .set userId sock, sockets => ((), Function.update sockets userId (some sock))
  | .erase userId, sockets => ((), Function.update sockets userId none)

/-- What needs no lock: the clock and the market-data API. -/
structure Unlocked where
  marketData : Bool
  subscribed : List Bytes
  clock : ℕ → LocalTime

/-- `time(nullptr)`, `SubscribeMarketData`, and nothing at all. -/
inductive FreeOp where
  | time
  | subscribe (contract : Bytes)
  | nothing

@[reducible] def FreeOp.Res : FreeOp → Type
  | .time => LocalTime
  | .subscribe _ => Unit
  | .nothing => Unit

def FreeOp.exec : (o : FreeOp) → Unlocked → o.Res × Unlocked
  | .time, u => (u.clock 0, { u with clock := fun n => u.clock (n + 1) })
  | .subscribe c, u =>
      ((), if u.marketData then { u with
          subscribed := u.subscribed ++ [(cstr c).val] } else u)
  | .nothing, u => ((), u)

/-- What the threads of the server share, by lock. -/
@[reducible] def serverMemory : Memory ServerLock where
  Part
    | .db => Connection
    | .price => Bytes → Option ℚ
    | .cache => PriceAlertCache
    | .online => ℤ → Option Socket
    | .queue => List NotifyTask
  Op
    | .db => Sql
    | .price => PriceOp
    | .cache => CacheOp
    | .online => OnlineOp
    | .queue => NotifyTask
  Res {ℓ} :=
    match ℓ with
    | .db => Sql.Res
    | .price => PriceOp.Res
    | .cache => CacheOp.Res
    | .online => OnlineOp.Res
    | .queue => fun _ => Unit
  exec {ℓ} :=
    match ℓ with
    | .db => Sql.exec
    | .price => PriceOp.exec
    | .cache => CacheOp.exec
    | .online => OnlineOp.exec
    | .queue => fun task tasks => ((), tasks ++ [task])
  Rest := Unlocked
  Free := FreeOp
  FreeRes := FreeOp.Res
  free := FreeOp.exec

/-! ## The methods -/

/-- Code of a method of `AlertDB`, under its lock. -/
abbrev DbCode (R : Type) := Program Sql Sql.Res R

/-- Makes one SQLite call. -/
def sql (o : Sql) : DbCode o.Res := Program.perform o

/-- `AlertDB::RegisterUser`. -/
def registerUserCode (username password email : Bytes) : DbCode ℤ := do
  let found : Option UserRow ← sql (.userByName username)
  let existId := (found.map UserRow.id).getD (-1)
  let existPwd := (found.map UserRow.password).getD Text.empty
  if 0 ≤ existId then
    if existPwd ≠ Text.empty then return -1
    else do
      sql (.updateUser existId (fun _ => cstr password) fun _ => cstr email)
      return existId
  else do
    let done : Bool ← sql (.insertUser (cstr username) (cstr password) (cstr email))
    if done then sql .lastRowid else return -1

/-- `AlertDB::VerifyLogin`. -/
def verifyLoginCode (username password : Bytes) : DbCode ℤ := do
  let found : Option UserRow ← sql (.userByName username)
  match found with
  | some r => return if r.password.val = password then r.id else -1
  | none => return -1

/-- `AlertDB::SetEmail`. -/
def setEmailCode (userId : ℤ) (email : Bytes) : DbCode Bool := do
  sql (.updateUser userId id fun _ => cstr email)
  return true

/-- `AlertDB::GetEmail`. -/
def getEmailCode (userId : ℤ) : DbCode Text := do
  let found : Option UserRow ← sql (.userById userId)
  return (found.map UserRow.email).getD Text.empty

/-- The INSERT of `AddPriceAlert` and `AddTimeAlert`. -/
def insertAlertCode (mk : ℤ → AlertRecord) (hmk : ∀ id, (mk id).id = id) : DbCode ℤ := do
  sql (.insertAlert mk hmk)
  sql .lastRowid

/-- The UPDATE of the methods that say whether they changed a row. -/
def updateAlertsCode (guard : AlertRecord → Bool) (f : AlertRecord → AlertRecord)
    (hf : ∀ r, (f r).id = r.id) : DbCode Bool := do
  sql (.updateAlerts guard f hf)
  let n : ℕ ← sql .changes
  return decide (0 < n)

/-- `while (sqlite3_step(stmt) == SQLITE_ROW)`: the loop goes on after the last row it has
seen, with the rows it has seen so far. -/
def fetchAlerts (selected : List AlertRecord → AlertRecord → Bool) {R : Type}
    (result : List AlertRecord → R) : serverMemory.Method .db R :=
  .loop ([] : List AlertRecord)
    (fun seen => Sql.nextAlert (selected seen) (seen.getLast?.map AlertRecord.id))
    fun seen row => row.elim (.inr (result seen)) fun r => .inl (seen ++ [r])

/-- `Notifier::UnregisterUser`. -/
def unregisterUserCode (userId : ℤ) (sock : Socket) :
    Program OnlineOp OnlineOp.Res Unit := do
  let it : Option Socket ← Program.perform (OnlineOp.find userId)
  if it = some sock then Program.perform (OnlineOp.erase userId) else return ()

/-- `UPDATE alerts SET status=2`. -/
def deletedRow (r : AlertRecord) : AlertRecord := { r with status := 2 }

/-- `UPDATE alerts SET status=1, triggered_at=?`. -/
def triggeredRow (ts : Text) (r : AlertRecord) : AlertRecord :=
  { r with status := 1, triggeredAt := ts }

/-- The UPDATE of `AlertDB::ModifyPriceAlert`. -/
def modifiedPriceRow (c : Bytes) (p : ℚ) (cond : ℤ) (r : AlertRecord) : AlertRecord :=
  { r with
      contract := cstr c, triggerPrice := p, condition := cond, alertType :=
        0, status := 0 }

/-- The UPDATE of `AlertDB::ModifyTimeAlert`. -/
def modifiedTimeRow (c t : Bytes) (r : AlertRecord) : AlertRecord :=
  { r with contract := cstr c, triggerTime := cstr t, alertType := 1, status := 0 }

theorem deletedRow_id (r : AlertRecord) : (deletedRow r).id = r.id := rfl

theorem triggeredRow_id (ts : Text) (r : AlertRecord) :
    (triggeredRow ts r).id = r.id := rfl

theorem modifiedPriceRow_id (c : Bytes) (p : ℚ) (cond : ℤ) (r : AlertRecord) :
    (modifiedPriceRow c p cond r).id = r.id := rfl

theorem modifiedTimeRow_id (c t : Bytes) (r : AlertRecord) :
    (modifiedTimeRow c t r).id = r.id := rfl

/-- The body of each call. -/
def serverBody : (c : Call) → serverMemory.Body c.Ans
  | .registerUser u p e => .locked .db (.ofProgram (registerUserCode u p e))
  | .verifyLogin u p => .locked .db (.ofProgram (verifyLoginCode u p))
  | .setEmail uid e => .locked .db (.ofProgram (setEmailCode uid e))
  | .getEmail uid => .locked .db (.ofProgram (getEmailCode uid))
  -- `CurrentTimestamp()` is read under the lock
  | .addPriceAlert uid c p cond =>
      .locked .db (.readFirst FreeOp.time fun now : LocalTime =>
      insertAlertCode (AlertDB.priceRow uid c p cond now.stamp) fun _ => rfl)
  | .addTimeAlert uid c t => .locked .db (.readFirst FreeOp.time fun now : LocalTime =>
      insertAlertCode (AlertDB.timeRow uid c t now.stamp) fun _ => rfl)
  | .deleteAlert id uid => .locked .db (.ofProgram
      (updateAlertsCode (AlertDB.ownGuard id uid) deletedRow deletedRow_id))
  | .modifyPriceAlert id uid c p cond => .locked .db (.ofProgram
      (updateAlertsCode (AlertDB.ownGuard id uid) (modifiedPriceRow c p cond)
        (modifiedPriceRow_id c p cond)))
  | .modifyTimeAlert id uid c t => .locked .db (.ofProgram
      (updateAlertsCode (AlertDB.ownGuard id uid) (modifiedTimeRow c t)
        (modifiedTimeRow_id c t)))
  | .triggerAlert rec ts => .locked .db (.ofProgram
      (updateAlertsCode (fun r => r.id = rec.id ∧ r.status = 0) (triggeredRow ts)
        (triggeredRow_id ts)))
  | .queryAlerts uid st => .locked .db <|
      if st = -1 then fetchAlerts (fun _ r => r.userId = uid) id
      else fetchAlerts (fun _ r => r.userId = uid ∧ r.status = st) id
  | .getPendingPriceAlerts c => .locked .db
      (fetchAlerts (fun _ r => AlertDB.pendingPrice r ∧ r.contract = c) id)
  | .getPendingTimeAlerts t => .locked .db
      (fetchAlerts (fun _ r => AlertDB.pendingTime r ∧ r.triggerTime = t) id)
  -- `SELECT DISTINCT contract`
  | .getPendingContracts => .locked .db (fetchAlerts
      (fun seen r => r.status = 0 ∧ r.contract ∉ seen.map AlertRecord.contract)
      fun seen => seen.map AlertRecord.contract)
  | .currentTime => .free FreeOp.time id
  | .setLastPrice c p => .locked .price (.ofProgram (.perform (PriceOp.set c p)))
  | .getLastPrice c => .locked .price (.ofProgram (.perform (PriceOp.find c)))
  | .copyCached c => .locked .cache (.ofProgram (.perform (CacheOp.find c)))
  | .swapCache next => .locked .cache (.ofProgram (.perform (CacheOp.swap next)))
  | .removeCached id => .locked .cache (.ofProgram (.perform (CacheOp.remove id)))
  | .fireAlert _ => .free FreeOp.nothing id
  | .registerSocket uid sock =>
      .locked .online (.ofProgram (.perform (OnlineOp.set uid sock)))
  | .unregisterSocket uid sock =>
      .locked .online (.ofProgram (unregisterUserCode uid sock))
  | .notify task => .locked .queue (.ofProgram (.perform task))
  | .subscribe c => .free (FreeOp.subscribe c) id

/-! ## What the methods do -/

/-- What the parts are in `World`. The connection stands for its tables. -/
@[reducible] def serverAbstraction : Abstraction serverMemory World where
  View
    | .db => AlertDB
    | .price => Bytes → Option ℚ
    | .cache => PriceAlertCache
    | .online => ℤ → Option Socket
    | .queue => List NotifyTask
  view
    | .db => World.db
    | .price => World.lastPrices
    | .cache => World.priceAlertCache
    | .online => World.userSockets
    | .queue => World.tasks
  rest w := ⟨w.marketData, w.subscribed, w.clock⟩
  Rep
    | .db => fun conn db => conn.db = db
    | .price => Eq
    | .cache => Eq
    | .online => Eq
    | .queue => Eq

theorem effect_store {c : Call} {w w₁ : World} {out : c.Ans × AlertDB} {conn : Connection}
    (hexec : exec c w = w₁.store out) (hconn : conn.db = out.2)
    (hkeeps : ∀ ℓ, ℓ ≠ ServerLock.db → serverAbstraction.view ℓ w₁ =
      serverAbstraction.view ℓ w) :
    serverAbstraction.Effect exec .db c w out.1 conn (serverAbstraction.rest w₁) where
  answer := congrArg Prod.fst hexec
  rep := by
    rw [hexec]
    exact hconn
  rest := by
    rw [hexec]
    rfl
  keeps ℓ hℓ := by
    rw [hexec, ← hkeeps ℓ hℓ]
    cases ℓ with
    | db => exact absurd rfl hℓ
    | _ => rfl

/-- Straight-line code is correct if, run alone, it computes what the call stores. -/
theorem correct_code {c : Call} {code : DbCode c.Ans} (out : AlertDB → c.Ans × AlertDB)
    (hexec : ∀ w, exec c w = w.store (out w.db))
    (hrun : ∀ conn,
      ((code.run Sql.exec conn).1, (code.run Sql.exec conn).2.db) = out conn.db) :
    serverAbstraction.Correct exec c (.locked .db (.ofProgram code)) := by
  refine Abstraction.correct_ofProgram fun w conn hw => ?_
  have hw : conn.db = w.db := hw
  obtain ⟨hanswer, htables⟩ := Prod.mk.inj (hrun conn)
  have hconn : (code.run Sql.exec conn).2.db = (out w.db).2 := htables.trans (by rw [hw])
  have heffect := effect_store (hexec w) hconn fun _ _ => rfl
  rw [← hw, ← hanswer] at heffect
  exact heffect

theorem run_sql_bind {R : Type} (o : Sql) (f : o.Res → DbCode R) (conn : Connection) :
    (sql o >>= f).run Sql.exec conn = (f (o.exec conn).1).run Sql.exec (o.exec conn).2 :=
  rfl

theorem run_registerUser (u p e : Bytes) (conn : Connection) :
    (((registerUserCode u p e).run Sql.exec conn).1,
      ((registerUserCode u p e).run Sql.exec conn).2.db) =
      conn.db.registerUser .none u p e := by
  obtain ⟨found, hfound⟩ : ∃ found, (conn.db.selectUsername u).head? = found := ⟨_, rfl⟩
  have hselect : Sql.exec (.userByName u) conn = (found, conn) :=
    congrArg (·, conn) hfound
  rw [registerUserCode, run_sql_bind, hselect]
  simp only [AlertDB.registerUser, Faults.none_prepare, Faults.none_step,
    Faults.none_firstRow, Bool.false_eq_true, if_false, hfound]
  by_cases hid : 0 ≤ (found.map UserRow.id).getD (-1)
  · by_cases hpwd : (found.map UserRow.password).getD Text.empty ≠ Text.empty
    · simp only [if_pos hid, if_pos hpwd]
      rfl
    · simp only [if_pos hid, if_neg hpwd]
      rfl
  · simp only [if_neg hid]
    by_cases hname : cstr u ∈ conn.db.users.rows.map UserRow.username
    · have hinsert : Sql.exec (.insertUser (cstr u) (cstr p) (cstr e)) conn =
          (false, conn) :=
        dif_pos hname
      rw [run_sql_bind, hinsert, dif_pos hname]
      rfl
    · have hinsert : Sql.exec (.insertUser (cstr u) (cstr p) (cstr e)) conn =
          (true, ⟨conn.db.insertUser _ _ _ hname, 1, conn.db.users.seq + 1⟩) :=
        dif_neg hname
      rw [run_sql_bind, hinsert, dif_neg hname]
      rfl

theorem run_verifyLogin (u p : Bytes) (conn : Connection) :
    (((verifyLoginCode u p).run Sql.exec conn).1,
      ((verifyLoginCode u p).run Sql.exec conn).2.db) =
        (conn.db.verifyLogin .none u p, conn.db) := by
  rw [verifyLoginCode, run_sql_bind]
  simp only [AlertDB.verifyLogin, Sql.exec, Faults.none_prepare, Faults.none_firstRow,
    Bool.false_eq_true, if_false]
  cases (conn.db.selectUsername u).head? <;> rfl

theorem run_getEmail (userId : ℤ) (conn : Connection) :
    (((getEmailCode userId).run Sql.exec conn).1,
      ((getEmailCode userId).run Sql.exec conn).2.db) =
        (conn.db.getEmail .none userId, conn.db) := by
  rw [getEmailCode, run_sql_bind]
  simp only [AlertDB.getEmail, Sql.exec, Faults.none_prepare, Faults.none_firstRow,
    Bool.false_eq_true, if_false]
  cases (conn.db.users.select fun r => r.id = userId).head? <;> rfl

/-- The methods that insert an alert read the clock first, and that is the moment at which
the call takes effect. -/
theorem correct_readFirst {c : Call} {code : LocalTime → DbCode c.Ans}
    (out : LocalTime → AlertDB → c.Ans × AlertDB)
    (hexec : ∀ w, exec c w = w.tickClock.store (out (w.clock 0) w.db))
    (hrun : ∀ now conn, (((code now).run Sql.exec conn).1,
      ((code now).run Sql.exec conn).2.db) = out now conn.db) :
    serverAbstraction.Correct exec c (.locked .db (.readFirst FreeOp.time code)) := by
  refine Abstraction.correct_readFirst fun w conn hw => ?_
  have hw : conn.db = w.db := hw
  obtain ⟨hanswer, htables⟩ := Prod.mk.inj (hrun (w.clock 0) conn)
  have hconn : ((code (w.clock 0)).run Sql.exec conn).2.db = (out (w.clock 0) w.db).2 :=
    htables.trans (by rw [hw])
  have heffect := effect_store (w := w) (hexec w) hconn fun ℓ _ => by cases ℓ <;> rfl
  rw [← hw, ← hanswer] at heffect
  exact heffect

theorem run_unregisterUser (userId : ℤ) (sock : Socket) (sockets : ℤ → Option Socket) :
    (unregisterUserCode userId sock).run OnlineOp.exec sockets =
      ((), if sockets userId = some sock then Function.update sockets userId none
        else sockets) := by
  change Program.run OnlineOp.exec (if sockets userId = some sock then _ else _) sockets =
    _
  split <;> rfl

/-! ## The rows of a SELECT -/

/-- What the loop of `fetchAlerts` has seen after the rows `rows`, if it had seen
`seen`. -/
def fetched (selected : List AlertRecord → AlertRecord → Bool) :
    List AlertRecord → List AlertRecord → List AlertRecord
  | seen, [] => seen
  | seen, r :: rows =>
      if selected seen r then fetched selected (seen ++ [r]) rows
      else fetched selected seen rows

theorem fetched_filter (p : AlertRecord → Bool) (seen rows : List AlertRecord) :
    fetched (fun _ => p) seen rows = seen ++ rows.filter p := by
  induction rows generalizing seen with
  | nil => simp [fetched]
  | cons r rows ih => by_cases h : p r <;> simp [fetched, h, ih]

theorem removeAll_concat {α : Type*} [DecidableEq α] (xs ys : List α) (a : α) :
    xs.removeAll (ys ++ [a]) = (xs.removeAll ys).filter fun b => !b == a := by
  simp only [List.removeAll, List.filter_filter]
  apply List.filter_congr
  intro b _
  by_cases h : b = a <;> simp [h]

/-- `SELECT DISTINCT` gives the first of the rows with one value. -/
theorem map_fetched_distinct (p : AlertRecord → Bool) (seen rows : List AlertRecord) :
    (fetched (fun seen r => p r && r.contract ∉ seen.map AlertRecord.contract) seen
      rows).map
        AlertRecord.contract =
      seen.map AlertRecord.contract ++
      (((rows.filter p).map AlertRecord.contract).removeAll
        (seen.map AlertRecord.contract)).eraseDups := by
  induction rows generalizing seen with
  | nil => simp [fetched]
  | cons r rows ih =>
      by_cases hp : p r
      · by_cases hseen : r.contract ∈ seen.map AlertRecord.contract
        · simp only [fetched, hp, hseen, not_true_eq_false, decide_false, Bool.and_false,
            Bool.false_eq_true, if_false, ih, List.filter_cons_of_pos, List.map_cons]
          rw [List.cons_removeAll]
          simp [hseen]
        · simp only [fetched, hp, hseen, not_false_eq_true, decide_true, Bool.and_true,
            if_true, ih, List.filter_cons_of_pos, List.map_cons]
          rw [List.cons_removeAll, if_pos (by simpa using hseen), List.eraseDups_cons,
            List.map_append, List.map_singleton, List.append_assoc, List.singleton_append]
          rw [removeAll_concat]
      · simp only [fetched, hp, Bool.false_and, Bool.false_eq_true, if_false, ih,
          not_false_eq_true, List.filter_cons_of_neg]

/-- The rows after the last row seen are those behind it in the table. -/
theorem filter_isAfter {front rows : List AlertRecord} {r : AlertRecord}
    (hsorted : (front ++ r :: rows).Pairwise fun r r' => r.id < r'.id)
    (p : AlertRecord → Bool) :
    (front ++ r :: rows).filter (fun r' => isAfter (some r.id) r' && p r') =
    rows.filter p := by
  obtain ⟨-, hrows, hfront⟩ := List.pairwise_append.mp hsorted
  have hbefore : ∀ r' ∈ front, ¬ (isAfter (some r.id) r' && p r') = true := by
    intro r' hr'
    have := hfront r' hr' r List.mem_cons_self
    simp [isAfter, not_lt_of_gt this]
  have hself : ¬ (isAfter (some r.id) r && p r) = true := by simp [isAfter]
  rw [List.filter_append, List.filter_eq_nil_iff.mpr hbefore, List.nil_append,
    List.filter_cons, if_neg hself]
  apply List.filter_congr
  intro r' hr'
  simp [isAfter, List.rel_of_pairwise_cons hrows hr']

theorem implements_round {c : Call} {selected : List AlertRecord → AlertRecord → Bool}
    {result : List AlertRecord → c.Ans} {conn : Connection} {db : AlertDB}
    {seen : List AlertRecord} {found : Option AlertRecord}
    (hfound : (conn.db.alerts.select fun r =>
      isAfter (seen.getLast?.map AlertRecord.id) r && selected seen r).head? = found)
    (h : serverAbstraction.Implements exec c (fetchAlerts selected result) db
      (found.elim (.inr (result seen)) fun r => .inl (seen ++ [r])) conn) :
    serverAbstraction.Implements exec c (fetchAlerts selected result) db
      (.inl seen) conn := by
  refine .op rfl ?_
  change serverAbstraction.Implements exec c (fetchAlerts selected result) db
    (Option.elim
      (Sql.exec (.nextAlert (selected seen) (seen.getLast?.map AlertRecord.id)) conn).1
      (.inr (result seen)) fun r => .inl (seen ++ [r])) conn
  simp only [Sql.exec, hfound]
  exact h

/-- The loop fetches what a scan of the table gives. -/
theorem implements_fetchAlerts {c : Call}
    {selected : List AlertRecord → AlertRecord → Bool}
    {result : List AlertRecord → c.Ans} {conn : Connection} {out : List AlertRecord}
    (hexec : ∀ w, w.db = conn.db → exec c w = w.store (result out, w.db))
    (front rows seen : List AlertRecord) (hrows : conn.db.alerts.rows = front ++ rows)
    (hnext : conn.db.alerts.select (fun r =>
      isAfter (seen.getLast?.map AlertRecord.id) r && selected seen r) =
        rows.filter (selected seen))
    (hout : fetched selected seen rows = out) :
    serverAbstraction.Implements exec c (fetchAlerts selected result) conn.db (.inl seen)
      conn := by
  induction rows generalizing front seen with
  | nil =>
      obtain rfl : seen = out := hout
      refine implements_round (congrArg List.head? hnext) (.ret rfl fun w hw => ?_)
      have hdb : conn.db = w.db := Eq.symm hw
      exact effect_store (hexec w hw) hdb fun _ _ => rfl
  | cons r rows ih =>
      by_cases hr : selected seen r
      · rw [fetched, if_pos hr] at hout
        rw [List.filter_cons_of_pos hr] at hnext
        have hsorted := conn.db.alerts.sorted
        rw [hrows] at hsorted
        refine implements_round (congrArg List.head? hnext)
          (ih (front ++ [r]) (seen ++ [r]) (by simp [hrows]) ?_ hout)
        rw [Table.select, hrows, List.getLast?_concat]
        exact filter_isAfter hsorted _
      · rw [fetched, if_neg hr] at hout
        rw [List.filter_cons_of_neg hr] at hnext
        exact ih (front ++ [r]) seen (by simp [hrows]) hnext hout

/-- A query is correct if it returns what a scan of the table gives. -/
theorem correct_fetchAlerts {c : Call} {selected : List AlertRecord → AlertRecord → Bool}
    {result : List AlertRecord → c.Ans}
    (hexec : ∀ w, exec c w = (result (fetched selected [] w.db.alerts.rows), w)) :
    serverAbstraction.Correct exec c (.locked .db (fetchAlerts selected result)) := by
  rintro db conn rfl
  refine implements_fetchAlerts (fun w hw => ?_) [] conn.db.alerts.rows [] rfl rfl rfl
  have hdb : w.db = conn.db := hw
  rw [hexec, ← hdb]
  rfl

theorem correct_select {c : Call} {p : AlertRecord → Bool}
    {result : List AlertRecord → c.Ans}
    (hexec : ∀ w, exec c w = (result (w.db.alerts.select p), w)) :
    serverAbstraction.Correct exec c (.locked .db (fetchAlerts (fun _ => p) result)) := by
  refine correct_fetchAlerts fun w => ?_
  rw [hexec, fetched_filter]
  rfl

/-- Every method does what its call does in one step. -/
theorem serverBody_correct (c : Call) :
    serverAbstraction.Correct exec c (serverBody c) := by
  cases c with
  | registerUser u p e =>
      exact correct_code (fun db => db.registerUser .none u p e) (fun _ => rfl)
        (run_registerUser u p e)
  | verifyLogin u p =>
      exact correct_code (fun db => (db.verifyLogin .none u p, db)) (fun _ => rfl)
        (run_verifyLogin u p)
  | setEmail uid e =>
      exact correct_code (fun db => db.setEmail .none uid e) (fun _ => rfl) fun _ => rfl
  | getEmail uid =>
      exact correct_code (fun db => (db.getEmail .none uid, db)) (fun _ => rfl)
        (run_getEmail uid)
  | addPriceAlert uid c p cond =>
      exact correct_readFirst
        (fun now db => db.addPriceAlert .none uid c p cond now.stamp)
        (fun _ => rfl) fun _ _ => rfl
  | addTimeAlert uid c t =>
      exact correct_readFirst (fun now db => db.addTimeAlert .none uid c t now.stamp)
        (fun _ => rfl) fun _ _ => rfl
  | deleteAlert id uid =>
      exact correct_code (fun db => db.deleteAlert .none id uid)
        (fun _ => rfl) fun _ => rfl
  | modifyPriceAlert id uid c p cond =>
      exact correct_code
        (fun db => db.modifyPriceAlert .none id uid c p cond) (fun _ => rfl)
        fun _ => rfl
  | modifyTimeAlert id uid c t =>
      exact correct_code (fun db => db.modifyTimeAlert .none id uid c t) (fun _ => rfl)
        fun _ => rfl
  | triggerAlert rec ts =>
      exact correct_code (fun db => db.triggerAlert .none rec.id ts) (fun _ => rfl)
        fun _ => rfl
  | queryAlerts uid st =>
      simp only [serverBody]
      split
      · rename_i hall
        exact correct_select fun w => by simp [execWith, AlertDB.queryAlerts, hall]
      · rename_i hall
        exact correct_select fun w => by simp [execWith, AlertDB.queryAlerts, hall]
  | getPendingPriceAlerts c =>
      exact correct_select fun w => by simp [execWith, AlertDB.getPendingPriceAlerts]
  | getPendingTimeAlerts t =>
      exact correct_select fun w => by simp [execWith, AlertDB.getPendingTimeAlerts]
  | getPendingContracts =>
      refine correct_fetchAlerts fun w => ?_
      have hdistinct := map_fetched_distinct (fun r => r.status = 0) [] w.db.alerts.rows
      rw [List.map_nil, List.removeAll_nil, List.nil_append] at hdistinct
      simp only [execWith, AlertDB.getPendingContracts, Faults.none_query, Table.select,
        ← hdistinct, Bool.decide_and]
  | currentTime => exact fun w => ⟨rfl, rfl, fun ℓ => by cases ℓ <;> rfl⟩
  | fireAlert rec => exact fun w => ⟨rfl, rfl, fun ℓ => by cases ℓ <;> rfl⟩
  | subscribe c =>
      intro w
      cases hdata : w.marketData with
      | true =>
          simp only [execWith, hdata, if_true, FreeOp.exec]
          exact ⟨trivial, trivial, fun ℓ => by cases ℓ <;> rfl⟩
      | false =>
          simp only [execWith, hdata, Bool.false_eq_true, if_false, FreeOp.exec]
          exact ⟨trivial, trivial, fun _ => trivial⟩
  | unregisterSocket uid sock =>
      refine Abstraction.correct_ofProgram fun w sockets hsockets => ?_
      obtain rfl : sockets = w.userSockets := hsockets
      have hrun := run_unregisterUser uid sock w.userSockets
      have hexec : exec (.unregisterSocket uid sock) w = ((), { w with
          userSockets :=
            ((unregisterUserCode uid sock).run OnlineOp.exec w.userSockets).2 }) := by
        rw [hrun]
        simp only [execWith]
        split <;> rfl
      exact ⟨rfl, congrArg (fun out => out.2.userSockets) hexec.symm,
        congrArg (fun out => serverAbstraction.rest out.2) hexec,
        fun ℓ hℓ => by rw [hexec]; cases ℓ <;> first | rfl | exact absurd rfl hℓ⟩
  | setLastPrice | getLastPrice | copyCached | swapCache | removeCached | registerSocket
    | notify =>
      -- one operation on a part that shows as it is
      refine Abstraction.correct_ofProgram fun w part hpart => ?_
      cases hpart
      exact ⟨rfl, rfl, rfl, fun ℓ hℓ => by cases ℓ <;> first | rfl | exact absurd rfl hℓ⟩

/-! ## The threads -/

variable {ι : Type*} [DecidableEq ι]

/-- A state of the server's threads and their locks. -/
abbrev LockedThreads (ι : Type*) := Fine serverMemory Call Call.Ans ι Session Job Reply

/-- The threads of the server with their locks. -/
def lockedServer (ι : Type*) [DecidableEq ι] : Machine (LockedThreads ι) (Choice ι Job) :=
  fine server serverBody

/-- Every thread is idle, and the connection has made no statement yet. -/
def LockedThreads.idleAt (w : World) (memory : ι → Session) : LockedThreads ι where
  part
    | .db => ⟨w.db, 0, 0⟩
    | .price => w.lastPrices
    | .cache => w.priceAlertCache
    | .online => w.userSockets
    | .queue => w.tasks
  rest := ⟨w.marketData, w.subscribed, w.clock⟩
  held _ := none
  thread i := .idle (memory i)
  marks := []

/-- The parts and the rest together. -/
def LockedThreads.world (s : LockedThreads ι) : World where
  db := (s.part .db).db
  priceAlertCache := s.part .cache
  lastPrices := s.part .price
  userSockets := s.part .online
  tasks := s.part .queue
  marketData := s.rest.marketData
  subscribed := s.rest.subscribed
  clock := s.rest.clock

/-- The state of the server behind a state of the threads with their locks. -/
abbrev Behind (s : LockedThreads ι) (c : Threads ι) : Prop :=
  serverAbstraction.Refines server.exec s c

omit [DecidableEq ι] in
theorem behind_idleAt (w : World) (memory : ι → Session) :
    Behind (.idleAt w memory) (System.idleAt w memory) where
  rest := rfl
  unheld ℓ _ := by cases ℓ <;> rfl
  holder i ℓ := by simp [LockedThreads.idleAt, FineThread.lock]
  thread i := rfl

omit [DecidableEq ι] in
/-- While no thread is inside a call, both are in the same world. -/
theorem world_of_behind {s : LockedThreads ι} {c : Threads ι} (h : Behind s c)
    (hfree : ∀ ℓ, s.held ℓ = none) : c.shared = s.world := by
  have hdb : (s.part .db).db = c.shared.db := h.unheld .db (hfree _)
  have hprice : s.part .price = c.shared.lastPrices := h.unheld .price (hfree _)
  have hcache : s.part .cache = c.shared.priceAlertCache := h.unheld .cache (hfree _)
  have honline : s.part .online = c.shared.userSockets := h.unheld .online (hfree _)
  have hqueue : s.part .queue = c.shared.tasks := h.unheld .queue (hfree _)
  have hrest : (⟨c.shared.marketData, c.shared.subscribed, c.shared.clock⟩ : Unlocked) =
    s.rest := h.rest
  unfold LockedThreads.world
  rw [hdb, hprice, hcache, honline, hqueue, ← hrest]

variable {w : World} {memory : ι → Session} {s : LockedThreads ι}
    {as : List (Choice ι Job)}

/-- The locks make the methods atomic: behind every run of the threads, whatever the order
of their SQLite calls and map operations, there is a run of `server`, in which every call
is one step. The same jobs are started and ended in the same order with the same replies,
and where no thread is inside a call both are in the same world. -/
theorem lockedServer_refines (h : (lockedServer ι).AnyRun (.idleAt w memory) as s) :
    ∃ t c, server.AnyRun (System.idleAt w memory) t c ∧ s.marks = t.filterMap Label.mark ∧
      (∀ i self, s.thread i = .idle self → c.thread i = .idle self) ∧
      ((∀ ℓ, s.held ℓ = none) → c.shared = s.world) := by
  obtain ⟨t, c, hrun, hmarks, hbehind⟩ :=
    (behind_idleAt w memory).exists_run serverBody_correct h
  refine ⟨t, c, hrun, hmarks, fun i self hi => ?_, world_of_behind hbehind⟩
  have hshows := hbehind.thread i
  rw [hi] at hshows
  exact hshows

/-- The reply with which a job ends. -/
def Mark.reply {L J β : Type*} : Mark ι L J β → Option β
  | .start _ _ _ => none
  | .finish _ _ _ b => some b

/-- Two clients register the same name at the same time: thread 0 starts first, thread 1
gets the lock first. -/
def bothRegister : List (Choice (Fin 2) Job) :=
  [Choice.start 0 (Job.connect 7), Choice.step 0, Choice.start 1 (Job.connect 8),
    Choice.step 1, Choice.start 0 (Job.line (ascii "REGISTER ann pw a@b")),
    Choice.start 1 (Job.line (ascii "REGISTER ann qw c@d"))] ++
  List.replicate 5 (Choice.step 1) ++
  [Choice.step 0, Choice.step 1, Choice.step 0, Choice.step 0, Choice.step 0]

/-- What the jobs of `bothRegister` reply. -/
def bothRegisterReplies : List Reply :=
  [⟨[], false⟩, ⟨[], false⟩, ⟨[ascii "OK"], false⟩,
    ⟨[ascii "ERR username already taken"], false⟩]

set_option maxRecDepth 10000 in
theorem bothRegister_runs :
    ∃ s, (lockedServer (Fin 2)).AnyRun (.idleAt newWorld fun _ => .new 0) bothRegister s ∧
      s.marks.filterMap Mark.reply = bothRegisterReplies := by
  have hrun : ((lockedServer (Fin 2)).follow (.idleAt newWorld fun _ => .new 0)
      bothRegister).map (fun s => s.marks.filterMap Mark.reply) =
        some bothRegisterReplies := by decide +kernel
  obtain ⟨s, hfollow, hreplies⟩ := Option.map_eq_some_iff.mp hrun
  exact ⟨s, Machine.run_of_follow hfollow, hreplies⟩

/-- One of the two has the name, as in the run behind it. -/
theorem bothRegister_refines :
    ∃ (t : List (ServerStep (Fin 2))) (c : Threads (Fin 2)),
      server.AnyRun (System.idleAt newWorld fun _ => .new 0) t c ∧
      (t.filterMap Label.mark).filterMap Mark.reply = bothRegisterReplies := by
  obtain ⟨s, hrun, hreplies⟩ := bothRegister_runs
  obtain ⟨t, c, hbehind, hmarks, -, -⟩ := lockedServer_refines hrun
  exact ⟨t, c, hbehind, hmarks ▸ hreplies⟩

/-- No deadlock: from every state of every run, each thread can be brought to the end of
its job by steps of the threads that are at work. -/
theorem lockedServer_progress
    (h : (lockedServer ι).AnyRun (.idleAt w memory) as s) (i : ι) :
    (lockedServer ι).CanReach Choice.IsStep
    (fun s' => ∃ self, s'.thread i = .idle self) s := by
  obtain ⟨t, c, -, -, hbehind⟩ := (behind_idleAt w memory).exists_run serverBody_correct h
  exact (hbehind.canReach_idle serverBody_correct i).trans fun _ hs' => .here hs'.2

/-- From any point of `bothRegister` on, thread 0 can get its reply. -/
theorem bothRegister_progress :
    ∃ s, (lockedServer (Fin 2)).CanReach Choice.IsStep
      (fun s' => ∃ self, s'.thread 0 = .idle self) s ∧ s.held .db = some 1 := by
  have hrun : ((lockedServer (Fin 2)).follow (.idleAt newWorld fun _ => .new 0)
      (bothRegister.take 8)).map (fun s => s.held .db) = some (some 1) := by
    decide +kernel
  obtain ⟨s, hfollow, hheld⟩ := Option.map_eq_some_iff.mp hrun
  exact ⟨s, lockedServer_progress (Machine.run_of_follow hfollow) 0, hheld⟩

end CloudAlert
