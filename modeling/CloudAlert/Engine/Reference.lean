import CloudAlert.Engine.Sweep
import CloudAlert.Server.History

/-!
# The engine without a cache

`scanExec` is a reference engine: it has no cache, and where the server copies
the cached alerts of a contract it scans the table. `serve_scan` is the step of
the simulation, along `dropCache` and under `Coherent`; `EventSpec` says what an
event does in terms of the table alone.
-/

namespace CloudAlert

open Program

/-- The calls of the reference engine. -/
def scanExec : (c : Call) → World → c.Ans × World
  | .copyCached contract, w => (w.db.getPendingPriceAlerts .none contract, w)
  | .swapCache _, w => ((), w)
  | .removeCached _, w => ((), w)
  | c, w => exec c w

/-- The world without its cache. -/
def World.dropCache (w : World) : World := { w with priceAlertCache := fun _ => none }

/-- The server without its cache. -/
def Server.dropCache (s : Server) : Server := ⟨s.world.dropCache, s.sessions⟩

/-! ## Simulation -/

/-- The calls of everything but the copy of the cache. -/
def NoCopyCall : Call → Prop
  | .copyCached _ => False
  | .swapCache next => WellKeyed next
  | _ => True

/-- The reference engine has the same tables and the same of everything else but
the cache. -/
def Scanning (w v : World) : Prop := v = w.dropCache ∧ WellKeyed w.priceAlertCache

theorem scanExec_answer {c : Call} {w v : World} (hc : NoCopyCall c) (h : Scanning w v) :
    (scanExec c v).1 = (exec c w).1 ∧ Answer c (exec c w).1 ∧
      Scanning (exec c w).2 (scanExec c v).2 := by
  obtain ⟨rfl, hkeyed⟩ := h
  have hkeyed' : WellKeyed (exec c w).2.priceAlertCache := by
    refine hkeyed.exec fun next hnext => ?_
    subst hnext
    exact hc
  have hsame : scanExec c w.dropCache = ((exec c w).1, (exec c w).2.dropCache) := by
    cases c with
    | copyCached => exact hc.elim
    | unregisterSocket uid sock =>
        by_cases hs : w.userSockets uid = some sock
        · simp [scanExec, execWith, World.dropCache, hs]
        · simp [scanExec, execWith, World.dropCache, hs]
    | subscribe c =>
        by_cases hs : w.marketData = true
        · simp [scanExec, execWith, World.dropCache, hs]
        · simp [scanExec, execWith, World.dropCache, hs]
    | _ => rfl
  rw [hsame]
  exact ⟨rfl, answer_exec c w, rfl, hkeyed'⟩

/-- A program that does not copy the cache runs alike on both engines. -/
theorem run_scan {α : Type} {pre : Call → Prop} {fin : α → Prop} {p : Action α}
    (hp : p.Respects pre Answer fin) (hpre : ∀ c, pre c → NoCopyCall c) {w : World}
    (hw : WellKeyed w.priceAlertCache) :
    run scanExec p w.dropCache = ((run exec p w).1, (run exec p w).2.dropCache) := by
  obtain ⟨hresult, hworld, -⟩ :=
    hp.run_rel Scanning (fun c s t hc h => scanExec_answer (hpre c hc) h) ⟨rfl, hw⟩
  exact Prod.ext hresult hworld

theorem dispatch_scan (self : Session) (line : Bytes) {w : World}
    (hw : WellKeyed w.priceAlertCache) :
    run scanExec (dispatch self line) w.dropCache =
      ((run exec (dispatch self line) w).1,
        (run exec (dispatch self line) w).2.dropCache) := by
  refine run_scan (dispatch_ok self line) (fun c hc => ?_) hw
  cases c <;> first | exact trivial | exact hc.2 | exact hc

theorem endSession_scan (self : Session) {w : World}
    (hw : WellKeyed w.priceAlertCache) :
    run scanExec (endSession self) w.dropCache =
      ((run exec (endSession self) w).1, (run exec (endSession self) w).2.dropCache) := by
  refine run_scan (endSession_respects self) (fun c hc => ?_) hw
  cases c <;> first | exact trivial | exact hc.elim

theorem checkPriceAlert_scan (contract : Text) (p : ℚ) {w : World} (hw : Coherent w) :
    run scanExec (checkPriceAlert contract p) w.dropCache =
      ((run exec (checkPriceAlert contract p) w).1,
        (run exec (checkPriceAlert contract p) w).2.dropCache) := by
  -- both engines go through the same copy
  have hstart : run scanExec (checkPriceAlert contract p) w.dropCache =
      run scanExec (checkPriceLoop p (w.priceAlertCache.at contract))
        (w.priced contract p).dropCache := by
    rw [hw contract]
    unfold checkPriceAlert World.priced
    split <;> rfl
  have hloop : (checkPriceLoop p (w.priceAlertCache.at contract)).Respects
      (PriceLoopCall (fun _ => True) p) Answer fun _ => True :=
    checkPriceLoop_respects fun _ _ => trivial
  rw [hstart, run_checkPriceAlert]
  refine run_scan hloop (fun c hc => ?_) (by simpa using hw.wellKeyed)
  cases c <;> first | exact trivial | exact hc.elim

theorem checkTimeAlerts_scan {w : World} (hw : WellKeyed w.priceAlertCache) :
    run scanExec checkTimeAlerts w.dropCache =
      ((run exec checkTimeAlerts w).1, (run exec checkTimeAlerts w).2.dropCache) := by
  have hcheck := checkTimeAlertsAt_respects (w.clock 0).hms
  refine run_scan (w := w.tickClock) hcheck (fun c hc => ?_) hw
  cases c <;> first | exact trivial | exact hc.elim

theorem refresh_scan {w : World} (hw : WellKeyed w.priceAlertCache) :
    run scanExec refreshPriceAlertCache w.dropCache =
      ((run exec refreshPriceAlertCache w).1,
        (run exec refreshPriceAlertCache w).2.dropCache) := by
  refine run_scan (refresh_respects fun c hc => ?_) (fun c hc => hc) hw
  cases c <;> first | exact hc | exact hc.elim

theorem serve_scan {s : Server} (h : Coherent s.world) (e : Event) :
    serve scanExec s.dropCache e = (serve exec s e).map Server.dropCache := by
  cases e with
  | startUp marketData =>
      have hstart := refresh_scan
        (w := World.fresh s.world.db marketData s.world.clock) wellKeyed_empty
      simp only [serve, Option.map_some]
      exact congrArg (fun out => some (Server.mk out.2 fun _ => none)) hstart
  | connect sock =>
      simp only [serve, Server.dropCache]
      cases s.sessions sock <;> rfl
  | line sock line =>
      simp only [serve, Server.dropCache]
      cases s.sessions sock with
      | none => rfl
      | some self =>
          simp only [dispatch_scan self line h.wellKeyed]
          split <;> rfl
  | disconnect sock =>
      simp only [serve, Server.dropCache]
      cases s.sessions sock with
      | none => rfl
      | some self =>
          simp only [endSession_scan self h.wellKeyed, Option.map_some]
          rfl
  | tick contract p =>
      simp only [serve, Server.dropCache, checkPriceAlert_scan contract p h]
      split <;> rfl
  | timerCheck =>
      simp only [serve, Server.dropCache, checkTimeAlerts_scan h.wellKeyed]
      split <;> rfl

/-! ## What an event does -/

/-- What an event does, read off the table: a tick fires the price alerts that are
due, a timer check the time alerts that are due, and no other event notifies. -/
def EventSpec (s : Server) (e : Event) (s' : Server) : Prop :=
  match e with
  | .tick contract lastPrice =>
      Swept (s.world.db.alerts.select (duePrice contract lastPrice)) (fun _ => lastPrice)
        s.world s'.world
  | .timerCheck =>
      Swept (s.world.db.alerts.select (dueTime (s.world.clock 0).hms))
        (fun r => (s.world.lastPrices r.contract.val).getD 0) s.world s'.world
  | .startUp _ => s'.world.tasks = [] ∧ s'.world.db = s.world.db
  | .line _ _ => s'.world.tasks = s.world.tasks
  | .connect _ | .disconnect _ =>
      s'.world.tasks = s.world.tasks ∧ s'.world.db = s.world.db

/-- Sweeping depends on the tables and the queue only. -/
theorem Swept.congr {due : List AlertRecord} {price : AlertRecord → ℚ} {w₀ w w' : World}
    (h : Swept due price w₀ w') (hdb : w₀.db = w.db) (htasks : w₀.tasks = w.tasks) :
    Swept due price w w' := by
  obtain ⟨stamp, notes, h⟩ := h
  exact ⟨stamp, notes, hdb ▸ h.users, hdb ▸ h.rows, htasks ▸ h.tasks, hdb ▸ h.built⟩

/-- The copies of a coherent cache that fire are the alerts that are due. -/
theorem filter_fires {w : World} (hw : Coherent w) (contract : Text) (p : ℚ) :
    (w.priceAlertCache.at contract).filter (fun r => fires r p) =
      w.db.alerts.select (duePrice contract p) := by
  rw [hw contract, AlertDB.getPendingPriceAlerts_none, Table.select, Table.select,
    List.filter_filter]
  apply List.filter_congr
  intro r _
  rw [Bool.eq_iff_iff, duePrice_iff, Bool.and_eq_true, decide_eq_true_iff]
  exact ⟨fun h => ⟨⟨h.2.2, h.2.1⟩, h.1⟩, fun h => ⟨h.2, h.1.2, h.1.1⟩⟩

/-- The copies a tick works on are pending rows of the table, each once. -/
theorem Coherent.cached {w : World} (hw : Coherent w) (contract : Text) :
    (∀ r ∈ w.priceAlertCache.at contract, r ∈ w.db.alerts.rows ∧ r.status = 0) ∧
      (w.priceAlertCache.at contract).Nodup := by
  rw [hw contract, AlertDB.getPendingPriceAlerts_none]
  refine ⟨fun r hr => ?_, w.db.alerts.nodup_rows.filter _⟩
  rw [Table.mem_select] at hr
  exact ⟨hr.1, (of_decide_eq_true (of_decide_eq_true hr.2).1).1⟩

theorem tick_spec {contract : Text} {p : ℚ} {w w' : World} (hw : Coherent w)
    (h : run exec (checkPriceAlert contract p) w = (true, w')) :
    Coherent w' ∧ Swept (w.db.alerts.select (duePrice contract p)) (fun _ => p) w w' := by
  rw [run_checkPriceAlert] at h
  have hpriced : Coherent (w.priced contract p) :=
    hw.congr (by rw [World.priced_db]) (World.priced_priceAlertCache ..)
  obtain ⟨htodo, hnodup⟩ := hw.cached contract
  rw [← World.priced_db w contract p] at htodo
  obtain ⟨hdone, hswept⟩ := checkPriceLoop_sweeps hpriced htodo hnodup h
  rw [filter_fires hw] at hswept
  exact ⟨hdone, hswept.congr (World.priced_db ..) (World.priced_tasks ..)⟩

/-- The rows a timer check works on are the alerts due at its time. -/
theorem getPendingTimeAlerts_none (db : AlertDB) (hms : Text) :
    db.getPendingTimeAlerts .none hms = db.alerts.select (dueTime hms) := by
  rw [AlertDB.getPendingTimeAlerts, Faults.none_query]
  unfold Table.select
  congr 1
  funext r
  rw [Bool.eq_iff_iff]
  simp only [dueTime, AlertDB.pendingTime, decide_eq_true_iff, and_assoc]

theorem mem_select_dueTime {db : AlertDB} {hms : Text} {r : AlertRecord}
    (h : r ∈ db.alerts.select (dueTime hms)) :
    (r ∈ db.alerts.rows ∧ r.status = 0) ∧ AlertDB.pendingTime r := by
  rw [Table.mem_select] at h
  obtain ⟨hstatus, htype, -⟩ := of_decide_eq_true h.2
  exact ⟨⟨h.1, hstatus⟩, decide_eq_true ⟨hstatus, htype⟩⟩

theorem run_checkTimeAlerts (w : World) :
    run exec checkTimeAlerts w =
      run exec (checkTimeLoop (w.db.alerts.select (dueTime (w.clock 0).hms)))
        w.tickClock := by
  rw [← getPendingTimeAlerts_none]
  rfl

theorem timerCheck_spec {w w' : World}
    (h : run exec checkTimeAlerts w = (true, w')) :
    (Coherent w → Coherent w') ∧ Swept (w.db.alerts.select (dueTime (w.clock 0).hms))
      (fun r => (w.lastPrices r.contract.val).getD 0) w w' := by
  rw [run_checkTimeAlerts] at h
  obtain ⟨hdone, hswept⟩ := checkTimeLoop_sweeps (w := w.tickClock)
    (fun r hr => (mem_select_dueTime hr).1) (fun r hr => (mem_select_dueTime hr).2)
    (w.db.alerts.nodup_rows.filter _) h
  exact ⟨fun hw => hdone (hw.congr rfl rfl), hswept.congr rfl rfl⟩

/-- A command line notifies nobody. -/
theorem dispatch_tasks (self : Session) (line : Bytes) (w : World) :
    (run exec (dispatch self line) w).2.tasks = w.tasks := by
  refine (dispatch_run self line (fun w' : World => w'.tasks = w.tasks) ?_ rfl).1
  intro c w' hc hw'
  rw [← hw']
  refine exec_tasks ?_ w'
  rintro task rfl
  exact hc

theorem refresh_frame (w : World) :
    (run exec refreshPriceAlertCache w).2.db = w.db ∧
      (run exec refreshPriceAlertCache w).2.tasks = w.tasks := by
  rw [run_refresh]
  exact ⟨rfl, rfl⟩

theorem endSession_frame (self : Session) (w : World) :
    (run exec (endSession self) w).2.db = w.db ∧
      (run exec (endSession self) w).2.tasks = w.tasks ∧
      (run exec (endSession self) w).2.priceAlertCache = w.priceAlertCache := by
  unfold endSession
  split
  · simp only [ask, perform, run_call, run_ret, exec, execWith]
    split <;> exact ⟨rfl, rfl, rfl⟩
  · exact ⟨rfl, rfl, rfl⟩

/-- One event of a coherent server: it does what the table says, and leaves the
server coherent. -/
theorem serve_spec {s s' : Server} {e : Event} (h : Coherent s.world)
    (hserve : serve exec s e = some s') : Coherent s'.world ∧ EventSpec s e s' := by
  cases step_of_serve hserve with
  | startUp marketData =>
      obtain ⟨hdb, htasks⟩ := refresh_frame
        (World.fresh s.world.db marketData s.world.clock)
      exact ⟨coherent_refresh _, htasks, hdb⟩
  | connect sock => exact ⟨h, rfl, rfl⟩
  | line sock line self =>
      exact ⟨dispatch_keepsCoherence self line _ h, dispatch_tasks self line _⟩
  | disconnect sock self =>
      obtain ⟨hdb, htasks, hcache⟩ := endSession_frame self s.world
      exact ⟨h.congr (by rw [hdb]) hcache, htasks, hdb⟩
  | tick contract p hrun => exact tick_spec h hrun
  | timerCheck hrun =>
      obtain ⟨hdone, hswept⟩ := timerCheck_spec hrun
      exact ⟨hdone h, hswept⟩

theorem serveAll_scan {s : Server} (h : Coherent s.world) (es : List Event) :
    serveAll scanExec s.dropCache es = (serveAll exec s es).map Server.dropCache := by
  induction es generalizing s with
  | nil => rfl
  | cons e es ih =>
      simp only [serveAll, serve_scan h]
      cases hserve : serve exec s e with
      | none => rfl
      | some s' => exact ih (serve_spec h hserve).1

/-- The server with its cache is the reference engine without one: on every
history that begins with a start-up both reach the same state and give the same
replies, and every event does what the table says. -/
theorem cached_engine_refines (db : AlertDB) (clock : ℕ → LocalTime) (marketData : Bool)
    (es : List Event) :
    let history := .startUp marketData :: es
    (serveAll exec (.off db clock) history).map Server.dropCache =
        serveAll scanExec (.off db clock) history ∧
      ∀ s, serveAll exec (.off db clock) history = some s →
        (∀ sock line, s.dropCache.reply scanExec sock line = s.reply exec sock line) ∧
        ∀ e s', serve exec s e = some s' → EventSpec s e s' := by
  intro history
  have hstart := refresh_scan (w := World.fresh db marketData clock) wellKeyed_empty
  have hcoherent := coherent_refresh (World.fresh db marketData clock)
  constructor
  · refine (serveAll_scan (s := ⟨_, fun _ => none⟩) hcoherent es).symm.trans ?_
    exact congrArg (fun out => serveAll scanExec ⟨out.2, fun _ => none⟩ es) hstart.symm
  · intro s hs
    have hinv : Coherent s.world := serveAll_invariant
      (fun s e s' hcoh hserve => (serve_spec hcoh hserve).1)
      (s := ⟨_, fun _ => none⟩) hcoherent hs
    refine ⟨fun sock line => ?_, fun e s' he => (serve_spec hinv he).2⟩
    unfold Server.reply
    cases hself : s.sessions sock with
    | none => simp [Server.dropCache, hself]
    | some self =>
        simp [Server.dropCache, hself, dispatch_scan self line hinv.wellKeyed]

/-- A history in which the user has an alert that the next tick fires. -/
def alertInTheCache : List Event :=
  [.connect 7, .line 7 (ascii "REGISTER ann pw a@b"), .line 7 (ascii "LOGIN ann pw"),
    .line 7 (ascii "ADD_PRICE ann rb2510 3500 1")]

set_option maxRecDepth 10000 in
theorem cached_engine_fires :
    ∃ s s', serveAll exec (.off .created fun _ => ⟨2025, 6, 0, 8, 55, 0⟩)
        (.startUp true :: alertInTheCache) = some s ∧
      serve exec s (.tick (cstr (ascii "rb2510")) 3400) = some s' ∧
      s'.world.tasks.length = 1 ∧
      EventSpec s (.tick (cstr (ascii "rb2510")) 3400) s' := by
  have hrun : ((serveAll exec (.off .created fun _ => ⟨2025, 6, 0, 8, 55, 0⟩)
      (.startUp true :: alertInTheCache)).bind fun s =>
        serve exec s (.tick (cstr (ascii "rb2510")) 3400)).map
          (fun s' => s'.world.tasks.length) = some 1 := by decide +kernel
  obtain ⟨s', hs', hlength⟩ := Option.map_eq_some_iff.mp hrun
  obtain ⟨s, hs, hserve⟩ := Option.bind_eq_some_iff.mp hs'
  obtain ⟨-, hspec⟩ := cached_engine_refines .created (fun _ => ⟨2025, 6, 0, 8, 55, 0⟩)
    true alertInTheCache
  exact ⟨s, s', hs, hserve, hlength, (hspec s hs).2 _ s' hserve⟩

end CloudAlert
