import CloudAlert.Engine.Reference
import CloudAlert.Session.Replies

/-!
# Plain texts

From a new database on, the tables hold plain texts only: tokens of command lines and
stamps of the clock. So do the TRIGGERED messages that the checks build from them
(`IsPush`), each of which is one line. `Healthy` collects what every event keeps.
-/

namespace CloudAlert

open Program

/-! ## The tables -/

/-- The texts of both tables are plain. -/
structure PlainTexts (db : AlertDB) : Prop where
  emails : ∀ u ∈ db.users.rows, ∀ b ∈ u.email.val, Plain b
  alerts : ∀ r ∈ db.alerts.rows, PlainRow r

theorem plainTexts_created : PlainTexts .created where
  emails _ h := by cases h
  alerts _ h := by cases h

theorem plain_empty : ∀ b ∈ Text.empty.val, Plain b := List.forall_mem_nil _

theorem PlainTexts.alerts_after {c : Call} {w : World} (h : PlainTexts w.db)
    (hc : TokenCall c) : ∀ r ∈ (exec c w).2.db.alerts.rows, PlainRow r := by
  intro r' hr'
  rcases mem_alerts_before c hr' with ⟨r, hr, rfl⟩ | hnew
  · have hrow := h.alerts r hr
    rcases apply_eq_or_edit c r with hsame | hedit
    · rw [hsame]
      exact hrow
    · generalize c.apply r = r' at hedit
      cases hedit with
      | trigger => exact ⟨hrow.contract, hrow.triggerTime, hrow.createdAt⟩
      | delete => exact ⟨hrow.contract, hrow.triggerTime, hrow.createdAt⟩
      | modifyPrice => exact ⟨plain_cstr hc, hrow.triggerTime, hrow.createdAt⟩
      | modifyTime => exact ⟨plain_cstr hc.1, plain_cstr hc.2, hrow.createdAt⟩
  · cases c with
    | addPriceAlert uid contract p cond =>
        obtain rfl := List.mem_singleton.mp hnew
        exact ⟨plain_cstr hc, plain_empty, (w.clock 0).plain_stamp⟩
    | addTimeAlert uid contract t =>
        obtain rfl := List.mem_singleton.mp hnew
        exact ⟨plain_cstr hc.1, plain_cstr hc.2, (w.clock 0).plain_stamp⟩
    | _ => cases hnew

theorem plain_updateUser {db : AlertDB}
    (h : ∀ u ∈ db.users.rows, ∀ b ∈ u.email.val, Plain b)
    {e : Bytes} (he : NoSpace e) {uid : ℤ} {pwd : Text → Text} :
    ∀ u ∈ (db.updateUser uid pwd fun _ => cstr e).users.rows,
    ∀ b ∈ u.email.val, Plain b := by
  intro u' hu'
  obtain ⟨u, hu, rfl⟩ := db.exists_of_mem_updateUser hu'
  split
  · exact plain_cstr he
  · exact h u hu

theorem PlainTexts.emails_after {c : Call} {w : World} (h : PlainTexts w.db)
    (hc : TokenCall c) :
    ∀ u ∈ (exec c w).2.db.users.rows, ∀ b ∈ u.email.val, Plain b := by
  by_cases hwrites : c.writesUsers
  · cases c with
    | registerUser name p e =>
        change ∀ u ∈ (w.db.registerUser .none name p e).2.users.rows, _
        have hout := w.db.registerUser_outcome name p e
        generalize w.db.registerUser .none name p e = out at hout
        cases hout with
        | taken => exact h.emails
        | completed => exact plain_updateUser h.emails hc
        | inserted =>
            refine List.forall_mem_append.mpr ⟨h.emails, ?_⟩
            exact List.forall_mem_singleton.mpr (plain_cstr hc)
    | setEmail uid e =>
        change ∀ u ∈ (w.db.setEmail .none uid e).2.users.rows, _
        rw [AlertDB.setEmail_none]
        exact plain_updateUser h.emails hc
    | _ => exact hwrites.elim
  · rw [exec_users_of_not_writes hwrites]
    exact h.emails

theorem PlainTexts.after {c : Call} {w : World} (h : PlainTexts w.db) (hc : TokenCall c) :
    PlainTexts (exec c w).2.db := ⟨h.emails_after hc, h.alerts_after hc⟩

/-- Such tables answer with plain texts. -/
theorem PlainTexts.answer {w : World} (h : PlainTexts w.db) (c : Call) :
    PlainAnswer c (exec c w).1 := by
  cases c with
  | getEmail uid =>
      change ∀ b ∈ (w.db.getEmail .none uid).val, Plain b
      simp only [AlertDB.getEmail, Faults.none_prepare, Faults.none_firstRow,
        Bool.false_eq_true, ↓reduceIte]
      split
      · rename_i u hu
        exact h.emails u ((Table.mem_select _).mp (List.mem_of_mem_head? hu)).1
      · exact plain_empty
  | queryAlerts uid status =>
      change ∀ r ∈ w.db.queryAlerts .none uid status, PlainRow r
      intro r hr
      unfold AlertDB.queryAlerts at hr
      split at hr
      · rw [Faults.none_query, Table.mem_select] at hr
        exact h.alerts r hr.1
      · rw [Faults.none_query, Table.mem_select] at hr
        exact h.alerts r hr.1
  | _ => trivial

/-- A command line keeps the tables plain. -/
theorem PlainTexts.after_line {w : World} (h : PlainTexts w.db) (self : Session)
    (line : Bytes) : PlainTexts (run exec (dispatch self line) w).2.db :=
  ((dispatch_tokens self line).run (fun w => PlainTexts w.db)
    (fun c _ hc hw => ⟨hw.after hc, hw.answer c⟩) h).1

/-! ## Messages -/

/-- A TRIGGERED line. -/
def IsPush (line : Bytes) : Prop := ascii "TRIGGERED" <+: line ∧ ∀ b ∈ line, Plain b

/-- The task sends one TRIGGERED line. -/
def SendsPush (task : NotifyTask) : Prop := ∃ line, task.msg = line ++ [10] ∧ IsPush line

theorem triggeredLine_isPush {r : AlertRecord} (hr : PlainRow r) {p : ℚ} {now : LocalTime}
    {msg : Bytes} (h : triggeredLine r p now.stamp = some msg) :
    ∃ line, msg = line ++ [10] ∧ IsPush line := by
  obtain rfl := snprintf_eq_some h
  refine ⟨_, rfl, ⟨32 :: _, rfl⟩, plain_unwords ?_⟩
  simp only [List.forall_mem_cons]
  exact ⟨by decide, plain_fmtInt _, plain_fmtInt _, hr.contract, plain_fmtPrice _,
    plain_fmtInt _, plain_fmtPrice _, plain_timeOrDash hr.triggerTime, now.plain_stamp,
    List.forall_mem_nil _⟩

/-! ## Checks -/

/-- The calls of a check: it hands TRIGGERED lines to the notifier. -/
def CheckCall : Call → Prop
  | .notify task => SendsPush task
  | .currentTime | .triggerAlert _ _ | .removeCached _ | .fireAlert _ | .getEmail _ =>
      True
  | .setLastPrice _ _ | .getLastPrice _ | .copyCached _ | .getPendingTimeAlerts _ => True
  | _ => False

/-- The rows a check works on are plain. -/
def CopyAnswer : (c : Call) → c.Ans → Prop
  | .copyCached _, records | .getPendingTimeAlerts _, records => ∀ r ∈ records, PlainRow r
  | _, _ => True

/-- The contract of a check. -/
abbrev Checks (check : Action Bool) :
    Prop := check.Respects CheckCall CopyAnswer fun _ => True

theorem fireAlert_checks {r : AlertRecord} (hr : PlainRow r) (p : ℚ) (now : LocalTime) :
    Checks (fireAlert r p now.stamp) := by
  obtain h | h | ⟨msg, subject, body, hmsg, h⟩ := fireAlert_cases r p now.stamp
  · rw [h]
    exact ⟨trivial, fun _ _ => trivial⟩
  · rw [h]
    exact ⟨trivial, fun _ _ => ⟨trivial, fun _ _ => trivial⟩⟩
  · rw [h]
    refine ⟨trivial, fun _ _ => ⟨trivial, fun email _ => ?_⟩⟩
    exact ⟨triggeredLine_isPush hr hmsg, fun _ _ => trivial⟩

theorem checkPriceLoop_checks {p : ℚ} {todo : List AlertRecord}
    (h : ∀ r ∈ todo, PlainRow r) : Checks (checkPriceLoop p todo) := by
  induction todo with
  | nil => trivial
  | cons rec rest ih =>
      obtain ⟨hrec, hrest⟩ := List.forall_mem_cons.mp h
      unfold checkPriceLoop
      split
      · refine ⟨trivial, fun now _ => ⟨trivial, fun ok _ => ?_⟩⟩
        change Checks (if ok = true then _ else _)
        split
        · refine ⟨trivial, fun _ _ => (fireAlert_checks hrec p now).bind fun fits _ => ?_⟩
          change Checks (if fits = true then _ else _)
          split
          · exact ih hrest
          · trivial
        · exact ih hrest
      · exact ih hrest

theorem checkPriceAlert_checks (contract : Text) (p : ℚ) :
    Checks (checkPriceAlert contract p) := by
  have hcheck : Checks (ask (.copyCached contract) >>= checkPriceLoop p) :=
    ⟨trivial, fun _ hrecords => checkPriceLoop_checks hrecords⟩
  unfold checkPriceAlert
  split
  · exact ⟨trivial, fun _ _ => hcheck⟩
  · exact hcheck

theorem checkTimeLoop_checks {todo : List AlertRecord} (h : ∀ r ∈ todo, PlainRow r) :
    Checks (checkTimeLoop todo) := by
  induction todo with
  | nil => trivial
  | cons rec rest ih =>
      obtain ⟨hrec, hrest⟩ := List.forall_mem_cons.mp h
      refine ⟨trivial, fun now _ => ⟨trivial, fun ok _ => ?_⟩⟩
      change Checks (if ok = true then _ else _)
      split
      · refine ⟨trivial, fun lastPrice _ => ?_⟩
        refine (fireAlert_checks hrec (lastPrice.getD 0) now).bind fun fits _ => ?_
        change Checks (if fits = true then _ else _)
        split
        · exact ih hrest
        · trivial
      · exact ih hrest

theorem checkTimeAlerts_checks : Checks checkTimeAlerts :=
  ⟨trivial, fun _ _ => ⟨trivial, fun _ hrecords => checkTimeLoop_checks hrecords⟩⟩

/-- What a check needs of the world, and keeps. -/
structure PlainWorld (w : World) : Prop where
  db : PlainTexts w.db
  cache : ∀ contract, ∀ r ∈ w.priceAlertCache.at contract, PlainRow r
  tasks : ∀ task ∈ w.tasks, SendsPush task

theorem PlainWorld.check {c : Call} {w : World} (h : PlainWorld w) (hc : CheckCall c) :
    PlainWorld (exec c w).2 ∧ CopyAnswer c (exec c w).1 := by
  cases c with
  | notify task =>
      refine ⟨⟨h.db, h.cache, List.forall_mem_append.mpr ⟨h.tasks, ?_⟩⟩, trivial⟩
      exact List.forall_mem_singleton.mpr hc
  | triggerAlert r ts =>
      exact ⟨⟨h.db.after (c := .triggerAlert r ts) trivial, h.cache, h.tasks⟩, trivial⟩
  | removeCached alertId =>
      refine ⟨⟨h.db, fun contract r hr => ?_, h.tasks⟩, trivial⟩
      change r ∈ (w.priceAlertCache.remove alertId).at contract at hr
      rw [PriceAlertCache.at_remove] at hr
      exact h.cache contract r (List.mem_of_mem_filter hr)
  | copyCached contract => exact ⟨h, h.cache contract⟩
  | getPendingTimeAlerts t =>
      refine ⟨h, fun r hr => h.db.alerts r ?_⟩
      change r ∈ w.db.getPendingTimeAlerts .none t at hr
      rw [getPendingTimeAlerts_none] at hr
      exact (mem_select_dueTime hr).1.1
  | currentTime => exact ⟨⟨h.db, h.cache, h.tasks⟩, trivial⟩
  | setLastPrice => exact ⟨⟨h.db, h.cache, h.tasks⟩, trivial⟩
  | fireAlert => exact ⟨h, trivial⟩
  | getEmail => exact ⟨h, trivial⟩
  | getLastPrice => exact ⟨h, trivial⟩
  | _ => exact hc.elim

/-! ## Events -/

/-- What every event keeps: the cache is coherent, the tables are plain, and the notifier
has TRIGGERED lines only. -/
structure Healthy (w : World) : Prop where
  coherent : Coherent w
  db : PlainTexts w.db
  tasks : ∀ task ∈ w.tasks, SendsPush task

/-- The copies of a coherent cache are rows of the table. -/
theorem Healthy.plainWorld {w : World} (h : Healthy w) : PlainWorld w where
  db := h.db
  cache contract r hr := h.db.alerts r ((h.coherent.cached contract).1 r hr).1
  tasks := h.tasks

theorem Healthy.checked {w : World} {check : Action Bool} (h : Healthy w)
    (hcheck : Checks check) : PlainWorld (run exec check w).2 :=
  (hcheck.run PlainWorld (fun _ _ hc hw => hw.check hc) h.plainWorld).1

theorem Healthy.serve {s s' : Server} {e : Event} (h : Healthy s.world)
    (hserve : CloudAlert.serve exec s e = some s') : Healthy s'.world := by
  have hcoherent := (serve_spec h.coherent hserve).1
  cases step_of_serve hserve with
  | startUp marketData =>
      obtain ⟨hdb, htasks⟩ := refresh_frame
        (World.fresh s.world.db marketData s.world.clock)
      refine ⟨hcoherent, ?_, ?_⟩
      · rw [hdb]
        exact h.db
      · rw [htasks]
        exact List.forall_mem_nil _
  | connect => exact h
  | line sock line self =>
      refine ⟨hcoherent, h.db.after_line self line, ?_⟩
      rw [dispatch_tasks]
      exact h.tasks
  | disconnect sock self =>
      obtain ⟨hdb, htasks, -⟩ := endSession_frame self s.world
      refine ⟨hcoherent, ?_, ?_⟩
      · rw [hdb]
        exact h.db
      · rw [htasks]
        exact h.tasks
  | tick contract p hrun =>
      have hplain := h.checked (checkPriceAlert_checks contract p)
      rw [hrun] at hplain
      exact ⟨hcoherent, hplain.db, hplain.tasks⟩
  | timerCheck hrun =>
      have hplain := h.checked checkTimeAlerts_checks
      rw [hrun] at hplain
      exact ⟨hcoherent, hplain.db, hplain.tasks⟩

/-- From a new database on, the server is healthy after its start-up. -/
theorem healthy_of_history {clock : ℕ → LocalTime} {marketData : Bool} {es : List Event}
    {s : Server}
    (h : serveAll exec (.off .created clock) (.startUp marketData :: es) = some s) :
    Healthy s.world := by
  have hstart : Healthy (run exec refreshPriceAlertCache
      (World.fresh .created marketData clock)).2 := by
    obtain ⟨hdb, htasks⟩ := refresh_frame (World.fresh .created marketData clock)
    refine ⟨coherent_refresh _, ?_, ?_⟩
    · rw [hdb]
      exact plainTexts_created
    · rw [htasks]
      exact List.forall_mem_nil _
  have hkeep : ∀ s e s', Healthy s.world → serve exec s e = some s' → Healthy s'.world :=
    fun _ _ _ hs hserve => hs.serve hserve
  exact serveAll_invariant hkeep (s := ⟨_, fun _ => none⟩) hstart h

end CloudAlert
