import CloudAlert.Program.Interleaving
import CloudAlert.Server.AlertDB

/-!
# Shared state and atomic calls

`World` is what the threads of the server share: the database, the two maps of
the alert engine, the online map and the task queue of the notifier, and the
market-data subscriptions. `Call` lists the calls that act on it. Each runs
under a lock of its own (`AlertDB::m_cs`, `m_priceMtx`, `m_alertCacheMtx`,
`Notifier::m_cs`, `m_queueCs`), so each is one atomic step, and `exec` is what
it does and returns.

`clock` are the readings of `time(nullptr)` still to come. A call that reads
the clock takes the first of them, so a statement about every clock is a
statement about every sequence of readings.
-/

namespace CloudAlert

/-! ## Protocol constants -/

def condGE : ℤ := 0
def condLE : ℤ := 1
def alertTypePrice : ℤ := 0
def alertTypeTime : ℤ := 1

/-! ## State -/

/-- A socket handle. -/
abbrev Socket := ℕ

/-- `Notifier::NotifyTask`. -/
structure NotifyTask where
  userId : ℤ
  msg : Bytes
  emailAddress : Bytes
  subject : Bytes
  body : Bytes
deriving DecidableEq

/-- `m_priceAlertCache`. -/
abbrev PriceAlertCache := Text → Option (List AlertRecord)

/-- What the threads share. -/
@[ext] structure World where
  db : AlertDB
  priceAlertCache : PriceAlertCache
  lastPrices : Bytes → Option ℚ
  userSockets : ℤ → Option Socket
  tasks : List NotifyTask          -- handed to `Notify`, oldest first
  marketData : Bool                -- `m_ctpHandler` is set and has an API
  subscribed : List Bytes          -- passed to `SubscribeMarketData`
  clock : ℕ → LocalTime

/-- The cached alerts of a contract: a contract without an entry has none. -/
def PriceAlertCache.at (cache : PriceAlertCache) (contract : Text) : List AlertRecord :=
  (cache contract).getD []

/-- `RemoveCachedPriceAlert`: an entry that runs empty is erased. -/
def PriceAlertCache.remove (cache : PriceAlertCache) (alertId : ℤ) : PriceAlertCache :=
  fun contract =>
    match cache contract with
    | none => none
    | some records =>
        let rest := records.filter fun r => r.id ≠ alertId
        if rest = [] then none else some rest

theorem PriceAlertCache.at_remove (cache : PriceAlertCache) (alertId : ℤ) (c : Text) :
    (cache.remove alertId).at c = (cache.at c).filter fun r => r.id ≠ alertId := by
  unfold PriceAlertCache.at PriceAlertCache.remove
  cases h : cache c with
  | none => rfl
  | some records =>
      by_cases hrest : (records.filter fun r => r.id ≠ alertId) = []
      · simp only [hrest, ↓reduceIte, Option.getD_none, Option.getD_some]
      · simp only [hrest, ↓reduceIte, Option.getD_some]

/-- The world after a reading of the clock. -/
def World.tickClock (w : World) : World := { w with clock := fun n => w.clock (n + 1) }

/-! ## Calls -/

/-- The atomic calls of the server's threads. -/
inductive Call where
  -- `AlertDB`
  | registerUser (username password email : Bytes)
  | verifyLogin (username password : Bytes)
  | setEmail (userId : ℤ) (email : Bytes)
  | getEmail (userId : ℤ)
  | addPriceAlert (userId : ℤ) (contract : Bytes) (price : ℚ) (condition : ℤ)
  | addTimeAlert (userId : ℤ) (contract time : Bytes)
  | deleteAlert (alertId userId : ℤ)
  | modifyPriceAlert (alertId userId : ℤ) (contract : Bytes) (price : ℚ) (cond : ℤ)
  | modifyTimeAlert (alertId userId : ℤ) (contract time : Bytes)
  | queryAlerts (userId status : ℤ)
  | getPendingPriceAlerts (contract : Text)
  | getPendingTimeAlerts (time : Text)
  -- `TriggerAlert(rec.id, triggeredAt)`, made for the copy `rec`
  | triggerAlert (rec : AlertRecord) (triggeredAt : Text)
  | getPendingContracts
  -- `AlertEngine`
  | currentTime
  | setLastPrice (contract : Text) (price : ℚ)
  | getLastPrice (contract : Bytes)
  | copyCached (contract : Text)
  | swapCache (next : PriceAlertCache)
  | removeCached (alertId : ℤ)
  -- entry of `FireAlert`; it has no effect of its own
  | fireAlert (rec : AlertRecord)
  -- `Notifier`
  | registerSocket (userId : ℤ) (sock : Socket)
  | unregisterSocket (userId : ℤ) (sock : Socket)
  | notify (task : NotifyTask)
  -- `CTPMdHandler`
  | subscribe (contract : Bytes)

/-- What a call returns. -/
@[reducible] def Call.Ans : Call → Type
  | .registerUser _ _ _ => ℤ
  | .verifyLogin _ _ => ℤ
  | .setEmail _ _ => Bool
  | .getEmail _ => Text
  | .addPriceAlert _ _ _ _ => ℤ
  | .addTimeAlert _ _ _ => ℤ
  | .deleteAlert _ _ => Bool
  | .modifyPriceAlert _ _ _ _ _ => Bool
  | .modifyTimeAlert _ _ _ _ => Bool
  | .queryAlerts _ _ => List AlertRecord
  | .getPendingPriceAlerts _ => List AlertRecord
  | .getPendingTimeAlerts _ => List AlertRecord
  | .triggerAlert _ _ => Bool
  | .getPendingContracts => List Text
  | .currentTime => LocalTime
  | .setLastPrice _ _ => Unit
  | .getLastPrice _ => Option ℚ
  | .copyCached _ => List AlertRecord
  | .swapCache _ => Unit
  | .removeCached _ => Unit
  | .fireAlert _ => Unit
  | .registerSocket _ _ => Unit
  | .unregisterSocket _ _ => Unit
  | .notify _ => Unit
  | .subscribe _ => Unit

/-- Stores the tables a method call leaves behind. -/
def World.store {α : Type} (w : World) (out : α × AlertDB) : α × World :=
  (out.1, { w with db := out.2 })

/-- What a call does, when `sql` are the outcomes of its SQLite calls. -/
def execWith (sql : Faults) : (c : Call) → World → c.Ans × World
  | .registerUser u p e, w => w.store (w.db.registerUser sql u p e)
  | .verifyLogin u p, w => (w.db.verifyLogin sql u p, w)
  | .setEmail uid e, w => w.store (w.db.setEmail sql uid e)
  | .getEmail uid, w => (w.db.getEmail sql uid, w)
  | .addPriceAlert uid c p cond, w =>
      w.tickClock.store (w.db.addPriceAlert sql uid c p cond (w.clock 0).stamp)
  | .addTimeAlert uid c t, w =>
      w.tickClock.store (w.db.addTimeAlert sql uid c t (w.clock 0).stamp)
  | .deleteAlert id uid, w => w.store (w.db.deleteAlert sql id uid)
  | .modifyPriceAlert id uid c p cond, w =>
      w.store (w.db.modifyPriceAlert sql id uid c p cond)
  | .modifyTimeAlert id uid c t, w => w.store (w.db.modifyTimeAlert sql id uid c t)
  | .queryAlerts uid st, w => (w.db.queryAlerts sql uid st, w)
  | .getPendingPriceAlerts c, w => (w.db.getPendingPriceAlerts sql c, w)
  | .getPendingTimeAlerts t, w => (w.db.getPendingTimeAlerts sql t, w)
  | .triggerAlert rec ts, w => w.store (w.db.triggerAlert sql rec.id ts)
  | .getPendingContracts, w => (w.db.getPendingContracts sql, w)
  | .currentTime, w => (w.clock 0, w.tickClock)
  | .setLastPrice c p, w =>
      ((), { w with lastPrices := Function.update w.lastPrices c.val (some p) })
  | .getLastPrice c, w => (w.lastPrices c, w)
  | .copyCached c, w => (w.priceAlertCache.at c, w)
  | .swapCache next, w => ((), { w with priceAlertCache := next })
  | .removeCached id, w =>
      ((), { w with priceAlertCache := w.priceAlertCache.remove id })
  | .fireAlert _, w => ((), w)
  | .registerSocket uid sock, w =>
      ((), { w with userSockets := Function.update w.userSockets uid (some sock) })
  | .unregisterSocket uid sock, w =>
      if w.userSockets uid = some sock then
        ((), { w with userSockets := Function.update w.userSockets uid none })
      else ((), w)
  | .notify task, w => ((), { w with tasks := w.tasks ++ [task] })
  | .subscribe c, w =>
      if w.marketData then ((), { w with subscribed := w.subscribed ++ [(cstr c).val] })
      else ((), w)

/-- What a call does when no SQLite call fails. -/
abbrev exec : (c : Call) → World → c.Ans × World := execWith .none

/-- Only `Notify` adds to the task queue. -/
theorem exec_tasks {c : Call} (h : ∀ task, c ≠ .notify task) (w : World) :
    (exec c w).2.tasks = w.tasks := by
  cases c with
  | notify task => exact absurd rfl (h task)
  | unregisterSocket uid sock =>
      simp only [exec, execWith]
      split <;> rfl
  | subscribe c =>
      simp only [exec, execWith]
      split <;> rfl
  | _ => rfl

/-- Only LOGIN and the end of a session write to the online map. -/
theorem exec_userSockets {c : Call} (h : ∀ uid sock, c ≠ .registerSocket uid sock)
    (h' : ∀ uid sock, c ≠ .unregisterSocket uid sock) (w : World) :
    (exec c w).2.userSockets = w.userSockets := by
  cases c with
  | registerSocket uid sock => exact absurd rfl (h uid sock)
  | unregisterSocket uid sock => exact absurd rfl (h' uid sock)
  | subscribe c =>
      simp only [exec, execWith]
      split <;> rfl
  | _ => rfl

/-- Code of a server thread. -/
abbrev Action (α : Type) := Program Call Call.Ans α

/-- Makes one call. -/
def ask (c : Call) : Action c.Ans := Program.perform c

/-- The lines a command handler sends, and whether the process ended in the
invalid-parameter handler of the runtime after sending them. -/
structure Reply where
  lines : List Bytes
  ended : Bool
deriving DecidableEq

end CloudAlert
