import CloudAlert.Server.Contracts
import CloudAlert.Server.History
import CloudAlert.Server.Stored

/-!
# The threads of the server

A connection is served by a thread of its own, the market-data thread checks the
price alerts on every tick, and the timer thread checks the time alerts. `Job`
are the pieces of code these threads run and `serverCode` is the code of each. The
private memory of a thread is the session it serves.

`server` runs any number of such threads on one `World`, one call a step. A thread
goes on after a job that ends the process, so the runs considered here are those of
the server and more. What a step does to a row of `alerts` is `ServerStep.apply`.
-/

namespace CloudAlert

open Program

/-- What a thread can be given to do. -/
inductive Job where
  -- the constructor of `AlertEngine`
  | startUp
  -- a new connection, its command lines and its end
  | connect (sock : Socket)
  | line (line : Bytes)
  | disconnect
  -- `CheckPriceAlert`
  | tick (contract : Text) (lastPrice : ℚ)
  -- `CheckTimeAlerts`, when `GetCurrentHMS()` gave `hms`
  | timer (hms : Text)
deriving DecidableEq

/-- A check that is not part of a session. -/
def engineJob (self : Session) (check : Action Bool) : Handler := do
  let fits ← check
  return (self, ⟨[], !fits⟩)

/-- The code of a job, on a thread that serves the session `self`. -/
def serverCode : Job → Session → Handler
  | .startUp, self => do
      refreshPriceAlertCache
      return (self, ⟨[], false⟩)
  | .connect sock, _ => return (Session.new sock, ⟨[], false⟩)
  | .line line, self => dispatch self line
  | .disconnect, self => do
      endSession self
      return (Session.new self.sock, ⟨[], false⟩)
  | .tick contract lastPrice, self =>
      engineJob self (checkPriceAlert contract lastPrice)
  | .timer hms, self => engineJob self (checkTimeAlertsAt hms)

/-- The server as a system of threads. -/
def server : System Call Call.Ans World Session Job Reply := ⟨exec, serverCode⟩

/-- A state of the server's threads. -/
abbrev Threads (ι : Type*) := Config Call Call.Ans ι World Session Job Reply

/-- A step in a trace of the server. -/
abbrev ServerStep (ι : Type*) := Label Call Call.Ans ι Session Job Reply

/-- A new server on an empty database, whose clock stands still. -/
def newWorld : World := .fresh .created false fun _ => ⟨2025, 6, 0, 9, 30, 0⟩

-- The threads of the traces below are in `Fin 2` by this.
instance neZero_threads : NeZero 2 := ⟨by decide⟩

/-- On a new connection, served by thread 0, ann registers, logs in and adds an alert
`rb2510 >= 3500`. -/
def annAddsAlert : List (Choice (Fin 2) Job) :=
  [Choice.start 0 (Job.connect 7), Choice.step 0] ++
  Choice.start 0 (Job.line (ascii "REGISTER ann pw a@b")) :: List.replicate 2
    (Choice.step 0) ++
  Choice.start 0 (Job.line (ascii "LOGIN ann pw")) :: List.replicate 3 (Choice.step 0) ++
  Choice.start 0 (Job.line (ascii "ADD_PRICE ann rb2510 3500 0")) ::
    List.replicate 6 (Choice.step 0)

/-! ## The contract of the threads -/

/-- The calls of a job, when the copies a tick of contract `c` works on are in
`copy c`. -/
def ServerCall (copy : Text → AlertRecord → Prop) : Job → Session → Call → Prop
  | .startUp, _ => RefreshCall
  | .connect _, _ => fun _ => False
  | .line line, self => SessionCall self line
  | .disconnect, self => EndCall self
  | .tick contract lastPrice, _ => PriceCheckCall (copy contract) contract lastPrice
  | .timer hms, _ => TimeCheckCall hms

/-- What a job leaves of the session of its thread. -/
def ServerResult : Job → Session → Session × Reply → Prop
  | .connect sock, _, out => out.1 = Session.new sock
  | .line line, self, out => SessionKept self line out
  | .disconnect, self, out => out.1 = Session.new self.sock
  | _, self, out => out.1 = self

theorem engineJob_respects {pre : Call → Prop} {post : (c : Call) → c.Ans → Prop}
    {check : Action Bool} (h : check.Respects pre post fun _ => True) (self : Session) :
    (engineJob self check).Respects pre post fun out => out.1 = self :=
  h.bind fun _ _ => rfl

theorem serverCode_respects {post : (c : Call) → c.Ans → Prop}
    {copy : Text → AlertRecord → Prop} (hpost : ∀ c r, post c r → Answer c r)
    (hcopy : ∀ contract records, post (.copyCached contract) records →
      ∀ rec ∈ records, copy contract rec) (job : Job) (self : Session) :
    (serverCode job self).Respects (ServerCall copy job self) post
      (ServerResult job self) := by
  have hanswer : ∀ {α : Type} {p : Action α} {pre : Call → Prop} {fin : α → Prop},
      p.Respects pre Answer fin → p.Respects pre post fin := fun hp =>
    hp.mono (fun _ h => h) (fun c r _ h => hpost c r h) fun _ h => h
  cases job with
  | startUp => exact (hanswer (refresh_respects fun _ h => h)).bind fun _ _ => rfl
  | connect sock => exact rfl
  | line line => exact hanswer (dispatch_ok self line)
  | disconnect => exact (hanswer (endSession_respects self)).bind fun _ _ => rfl
  | tick contract p =>
      exact engineJob_respects
        (checkPriceAlert_respects contract p fun records h => hcopy contract records h)
        self
  | timer hms => exact engineJob_respects (hanswer (checkTimeAlertsAt_respects hms)) self

theorem server_contract : System.Contract server (fun _ => True)
    (ServerCall fun _ _ => True) Answer ServerResult where
  code := serverCode_respects (fun _ _ h => h) fun _ _ _ _ _ => trivial
  exec _ _ c w _ _ := ⟨trivial, answer_exec c w⟩

/-- The answers of queries, and of the copy of a well-keyed cache. -/
def KeyedAnswer : (c : Call) → c.Ans → Prop
  | .copyCached contract, records => ∀ rec ∈ records, Keyed contract rec
  | c, r => Answer c r

/-- From a well-keyed cache on, a tick works on pending price alerts of its
contract. -/
theorem server_contract_keyed : System.Contract server
    (fun w => WellKeyed w.priceAlertCache) (ServerCall Keyed) KeyedAnswer
    ServerResult where
  code := by
    refine serverCode_respects (fun c r h => ?_) fun contract records h => h
    cases c <;> first | exact h | trivial
  exec job self c w hc hw := by
    constructor
    · refine hw.exec ?_
      rintro next rfl
      cases job with
      | startUp => exact hc
      | line line => exact hc.2
      | _ => exact hc.elim
    · have hanswer := answer_exec c w
      cases c with
      | copyCached contract => exact hw contract
      | _ => exact hanswer

/-! ## Steps on an alert -/

/-- A query returns the copy. -/
def Call.reads (rec : AlertRecord) : (c : Call) → c.Ans → Bool
  | .getPendingPriceAlerts _, records => rec ∈ records
  | .getPendingTimeAlerts _, records => rec ∈ records
  | _, _ => false

/-- `TriggerAlert` of the alert succeeds. -/
def Call.triggers (alertId : ℤ) : (c : Call) → c.Ans → Bool
  | .triggerAlert rec _, ok => ok && rec.id = alertId
  | _, _ => false

/-- `FireAlert` is called for the alert. -/
def Call.notifies (alertId : ℤ) : (c : Call) → c.Ans → Bool
  | .fireAlert rec, _ => rec.id = alertId
  | _, _ => false

/-- `ModifyPriceAlert` or `ModifyTimeAlert` of the alert succeeds. -/
def Call.modifies (alertId : ℤ) : (c : Call) → c.Ans → Bool
  | .modifyPriceAlert id _ _ _ _, ok => ok && id = alertId
  | .modifyTimeAlert id _ _ _, ok => ok && id = alertId
  | _, _ => false

/-- `DeleteAlert` of the alert succeeds. -/
def Call.deletes (alertId : ℤ) : (c : Call) → c.Ans → Bool
  | .deleteAlert id _, ok => ok && id = alertId
  | _, _ => false

section Succeeds

variable {w : World} {r : AlertRecord} (hr : r ∈ w.db.alerts.rows)
include hr

theorem triggers_exec {rec : AlertRecord} {ts : Text} (hid : r.id = rec.id)
    (hpending : r.status = 0) :
    (Call.triggerAlert rec ts).triggers r.id (exec (.triggerAlert rec ts) w).1 := by
  have hok : (exec (.triggerAlert rec ts) w).1 = true :=
    triggerAlert_true.mpr ⟨r, hr, hid, hpending⟩
  simp only [Call.triggers, hok, hid, decide_true, Bool.and_self]

theorem deletes_exec {id uid : ℤ} (hid : r.id = id) (howner : r.userId = uid)
    (hlive : r.status ≠ 2) :
    (Call.deleteAlert id uid).deletes r.id (exec (.deleteAlert id uid) w).1 := by
  have hok := deleteAlert_true.mpr ⟨r, hr, hid, howner, hlive⟩
  simp only [Call.deletes, hok, hid, decide_true, Bool.and_self]

theorem modifies_price {id uid : ℤ} {c : Bytes} {p : ℚ} {cond : ℤ} (hid : r.id = id)
    (howner : r.userId = uid) (hlive : r.status ≠ 2) :
    (Call.modifyPriceAlert id uid c p cond).modifies r.id
      (exec (.modifyPriceAlert id uid c p cond) w).1 := by
  have hok : (exec (.modifyPriceAlert id uid c p cond) w).1 = true :=
    modifyPriceAlert_true.mpr ⟨r, hr, hid, howner, hlive⟩
  simp only [Call.modifies, hok, hid, decide_true, Bool.and_self]

theorem modifies_time {id uid : ℤ} {c s : Bytes} (hid : r.id = id)
    (howner : r.userId = uid) (hlive : r.status ≠ 2) :
    (Call.modifyTimeAlert id uid c s).modifies r.id
      (exec (.modifyTimeAlert id uid c s) w).1 := by
  have hok : (exec (.modifyTimeAlert id uid c s) w).1 = true :=
    modifyTimeAlert_true.mpr ⟨r, hr, hid, howner, hlive⟩
  simp only [Call.modifies, hok, hid, decide_true, Bool.and_self]

end Succeeds

theorem exists_of_triggers {ι : Type*} {lbl : ServerStep ι} {alertId : ℤ}
    (h : lbl.does (Call.triggers alertId)) :
    ∃ rec ts, lbl.kind = .call (.triggerAlert rec ts) true ∧ rec.id = alertId := by
  obtain ⟨i, self, job, kind⟩ := lbl
  cases kind with
  | call c r =>
      cases c with
      | triggerAlert rec ts =>
          obtain ⟨rfl, hid⟩ := Bool.and_eq_true_iff.mp h
          exact ⟨rec, ts, rfl, of_decide_eq_true hid⟩
      | _ => cases h
  | _ => cases h

/-- The row after the step. -/
def ServerStep.apply {ι : Type*} (lbl : ServerStep ι) (r : AlertRecord) : AlertRecord :=
  match lbl.kind with
  | .call c _ => c.apply r
  | _ => r

/-- Each thread keeps to the calls of its job. -/
abbrev KeepsJobs {ι : Type*} (c : Threads ι) : Prop :=
  System.Keeps (fun _ => True) (ServerCall fun _ _ => True) Answer ServerResult c

theorem checked_of_serverCall {copy : Text → AlertRecord → Prop} {job : Job}
    {self : Session} {c : Call} (hc : ServerCall copy job self c) : c.Checked := by
  cases c with
  | addPriceAlert uid contract p cond =>
      cases job with
      | line line => exact hc.2.2.2
      | _ => exact hc.elim
  | modifyPriceAlert id uid contract p cond =>
      cases job with
      | line line => exact hc.2.2.2
      | _ => exact hc.elim
  | _ => trivial

section Runs

variable {ι : Type*} [DecidableEq ι]
  {ok : List (ServerStep ι) → Threads ι → ServerStep ι → Prop}
  {w₀ : World} {memory : ι → Session} {t : List (ServerStep ι)} {c c' : Threads ι}
  {lbl : ServerStep ι}

/-- In every run each thread keeps to the calls of its job. -/
theorem run_keeps (h : server.Run ok (System.idleAt w₀ memory) t c) : KeepsJobs c :=
  h.keeps server_contract (System.keeps_idleAt trivial)

/-- From stored tables on, every run of the threads leaves stored tables. -/
theorem run_stored (hstored : w₀.db.Stored)
    (h : server.Run ok (System.idleAt w₀ memory) t c) : c.shared.db.Stored := by
  have hcontract : System.Contract server (fun w => w.db.Stored)
      (ServerCall fun _ _ => True) Answer ServerResult := {
    code := server_contract.code
    exec := fun _ _ c w hc hw => ⟨hw.call .none c (checked_of_serverCall hc),
      answer_exec c w⟩ }
  exact (h.keeps hcontract (System.keeps_idleAt hstored)).shared

theorem mem_alerts_after_step (hstep : server.Step c lbl c') {r : AlertRecord}
    (hr : r ∈ c.shared.db.alerts.rows) : lbl.apply r ∈ c'.shared.db.alerts.rows := by
  cases hstep with
  | start => exact hr
  | call i self job o k h => exact mem_alerts_after o hr
  | finish => exact hr

end Runs

end CloudAlert
