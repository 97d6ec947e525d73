import CloudAlert.Concurrent.AlertLife
import CloudAlert.Concurrent.StaleCopy
import CloudAlert.Text.Numerals
import CloudAlert.Text.Width

/-!
# Where a notification comes from

A check works on copies of alerts: on those it has just read, or on those of a cache that
some session has filled before. `RightNotice` traces a task handed to `Notify` back to the
table: its line and its mail are made of a row that was pending and due in an earlier
state of the run, and it is for the user of that row, who is the owner to this day
(`rightNotices_of_run`). The other way round, every `TriggerAlert` that succeeds is
followed by one task for its alert, unless a text does not fit its buffer and the process
ends (`triggers_eq_tells`).
-/

namespace CloudAlert

open Program

/-! ## Tasks -/

/-- `FireAlert` makes the task of the copy, at this price and time. -/
structure NotifyTask.Tells (task : NotifyTask) (rec : AlertRecord) (lastPrice : ℚ)
    (timestamp : Text) : Prop where
  userId : task.userId = rec.userId
  msg : triggeredLine rec lastPrice timestamp = some task.msg
  subject : mailSubject rec = some task.subject
  body : mailBody rec lastPrice timestamp = some task.body

/-- The line of the task names the alert. -/
def NotifyTask.isFor (alertId : ℤ) (task : NotifyTask) : Bool :=
  (splitLine task.msg)[1]? = some (fmtInt alertId)

theorem splitLine_triggeredLine {rec : AlertRecord} {lastPrice : ℚ} {timestamp : Text}
    {msg : Bytes} (h : triggeredLine rec lastPrice timestamp = some msg) :
    (splitLine msg)[1]? = some (fmtInt rec.id) := by
  have hword : IsToken (ascii "TRIGGERED") := by decide
  obtain rfl := snprintf_eq_some h
  rw [unwords_cons_cons, unwords_cons_cons, List.append_assoc, List.cons_append,
    splitLine_token_append hword, List.append_assoc, List.cons_append,
    splitLine_token_append (isToken_fmtInt rec.id)]
  rfl

theorem NotifyTask.Tells.isFor_iff {task : NotifyTask} {rec : AlertRecord} {lastPrice : ℚ}
    {timestamp : Text} (h : task.Tells rec lastPrice timestamp) (alertId : ℤ) :
    task.isFor alertId ↔ rec.id = alertId := by
  rw [isFor, splitLine_triggeredLine h.msg, decide_eq_true_iff, Option.some_inj]
  exact fmtInt_injective.eq_iff

/-! ## Copies -/

/-- Everything in the cache satisfies `P`, under its contract. -/
def PriceAlertCache.All (P : Text → AlertRecord → Prop) (cache : PriceAlertCache) :
    Prop :=
  ∀ contract, ∀ rec ∈ cache.at contract, P contract rec

section

variable {P : Text → AlertRecord → Prop} {cache : PriceAlertCache}

theorem PriceAlertCache.All.update (h : cache.All P) {contract : Text}
    {records : List AlertRecord} (hr : ∀ rec ∈ records, P contract rec) :
    PriceAlertCache.All P (Function.update cache contract (some records)) := by
  intro contract' rec hrec
  by_cases hc : contract' = contract
  · subst hc
    simp only [PriceAlertCache.at, Function.update_self, Option.getD_some] at hrec
    exact hr rec hrec
  · simp only [PriceAlertCache.at, Function.update_of_ne hc] at hrec
    exact h contract' rec hrec

theorem PriceAlertCache.All.remove (h : cache.All P) (alertId : ℤ) :
    (cache.remove alertId).All P := by
  intro contract rec hrec
  rw [PriceAlertCache.at_remove] at hrec
  exact h contract rec (List.mem_of_mem_filter hrec)

/-- What a refresh swaps in is what its queries have returned. -/
theorem refresh_all {pre : Call → Prop} {post : (c : Call) → c.Ans → Prop}
    (hcontracts : pre .getPendingContracts) (hread : ∀ c, pre (.getPendingPriceAlerts c))
    (hswap : ∀ next : PriceAlertCache, next.All P → pre (.swapCache next))
    (hpost : ∀ c records, post (.getPendingPriceAlerts c) records →
      ∀ rec ∈ records, P c rec) :
    refreshPriceAlertCache.Respects pre post fun _ => True := by
  have hloop : ∀ contracts (next : PriceAlertCache), next.All P →
      (refreshLoop contracts next).Respects pre post fun next => next.All P := by
    intro contracts
    induction contracts with
    | nil => exact fun next h => h
    | cons c rest ih =>
        intro next h
        refine ⟨hread c, fun records hr => ?_⟩
        change Respects _ _ _ (if records ≠ [] then _ else _)
        split
        · exact ih _ (h.update (hpost c records hr))
        · exact ih _ h
  refine ⟨hcontracts, fun contracts _ => (hloop contracts _ ?_).bind fun next hnext =>
    ⟨hswap next hnext, fun _ _ => trivial⟩⟩
  intro contract rec h
  cases h

end

/-! ## The contract -/

section

variable {H : AlertRecord → Prop}

/-- The pending price alerts of the contract in `H`. -/
abbrev KeyedIn (H : AlertRecord → Prop) (contract : Text) (rec : AlertRecord) : Prop :=
  Keyed contract rec ∧ H rec

/-- The copy the task is made of: one in `H` the job is a check of, at the price of a
tick. -/
def MadeFor (H : AlertRecord → Prop) (job : Job) (task : NotifyTask) : Prop :=
  ∃ rec lastPrice timestamp, H rec ∧ job.due rec ∧ task.Tells rec lastPrice timestamp ∧
    ∀ contract p, job = .tick contract p → lastPrice = p

/-- What goes into the cache and what is handed to `Notify` comes from `H`. -/
def NoticeCall (H : AlertRecord → Prop) (job : Job) : Call → Prop
  | .swapCache next => next.All (KeyedIn H)
  | .notify task => MadeFor H job task
  | _ => True

/-- What is read comes from `H`. -/
def NoticeAnswer (H : AlertRecord → Prop) : (c : Call) → c.Ans → Prop
  | .getPendingPriceAlerts c, records => ∀ rec ∈ records, KeyedIn H c rec
  | .copyCached c, records => ∀ rec ∈ records, KeyedIn H c rec
  | .getPendingTimeAlerts hms, records => ∀ rec ∈ records, dueTime hms rec ∧ H rec
  | _, _ => True

theorem NoticeAnswer.answer {c : Call} {r : c.Ans} (h : NoticeAnswer H c r) :
    Answer c r := by
  cases c with
  | getPendingPriceAlerts c => exact fun rec hrec => (h rec hrec).1
  | getPendingTimeAlerts hms => exact fun rec hrec => dueTime_iff.mp (h rec hrec).1
  | _ => trivial

theorem notices_of_respects {α : Type} {pre : Call → Prop} {fin : α → Prop} {p : Action α}
    {job : Job} (h : p.Respects pre Answer fin) (hswap : ∀ next, ¬ pre (.swapCache next))
    (hnotify : ∀ task, ¬ pre (.notify task)) :
    p.Respects (NoticeCall H job) (NoticeAnswer H) fun _ => True := by
  refine h.mono (fun c hc => ?_) (fun _ _ _ h => h.answer) fun _ _ => trivial
  cases c with
  | swapCache next => exact absurd hc (hswap next)
  | notify task => exact absurd hc (hnotify task)
  | _ => trivial

/-- The contract of a handler. -/
abbrev KeepsNotices {α : Type} (H : AlertRecord → Prop) (job : Job) (p : Action α) :
    Prop :=
  p.Respects (NoticeCall H job) (NoticeAnswer H) fun _ => True

theorem refresh_notices (job : Job) : KeepsNotices H job refreshPriceAlertCache :=
  refresh_all (P := KeyedIn H) trivial (fun _ => trivial) (fun _ h => h) fun _ _ h => h

variable (self : Session) (line : Bytes)

theorem handleAddPrice_notices :
    KeepsNotices H (.line line) (handleAddPrice self line) := by
  unfold handleAddPrice
  split
  · trivial
  · split
    · split
      · trivial
      · refine ⟨trivial, fun id _ => ?_⟩
        change KeepsNotices H _ (if id < 0 then _ else _)
        split
        · trivial
        · exact (refresh_notices _).bind fun _ _ => ⟨trivial, fun _ _ => trivial⟩
    · trivial

theorem handleDelete_notices : KeepsNotices H (.line line) (handleDelete self line) := by
  unfold handleDelete
  split
  · trivial
  · split
    · refine ⟨trivial, fun ok _ => ?_⟩
      change KeepsNotices H _ (if ok = true then _ else _)
      split
      · exact (refresh_notices _).bind fun _ _ => trivial
      · trivial
    · trivial

theorem handleModifyPrice_notices :
    KeepsNotices H (.line line) (handleModifyPrice self line) := by
  unfold handleModifyPrice
  split
  · trivial
  · split
    · split
      · trivial
      · refine ⟨trivial, fun ok _ => ?_⟩
        change KeepsNotices H _ (if ok = true then _ else _)
        split
        · exact (refresh_notices _).bind fun _ _ => ⟨trivial, fun _ _ => trivial⟩
        · trivial
    · trivial

theorem handleModifyTime_notices :
    KeepsNotices H (.line line) (handleModifyTime self line) := by
  unfold handleModifyTime
  split
  · trivial
  · split
    · refine ⟨trivial, fun ok _ => ?_⟩
      change KeepsNotices H _ (if ok = true then _ else _)
      split
      · exact (refresh_notices _).bind fun _ _ => trivial
      · trivial
    · trivial

theorem dispatch_notices : KeepsNotices H (.line line) (dispatch self line) := by
  have hother : ∀ {word : Bytes} {p : Handler}, word ∉ refreshWords →
      (commandWord line = word → HandlerOk self line p) → commandWord line = word →
      KeepsNotices H (.line line) p := by
    intro word p hword hp heq
    exact notices_of_respects (hp heq) (fun next hc => hword (heq ▸ hc.1))
      fun task hc => hc
  refine dispatch_rule self line ?_ ?_ (fun _ => handleAddPrice_notices self line) ?_
    (fun _ => handleDelete_notices self line)
    (fun _ => handleModifyPrice_notices self line)
    (fun _ => handleModifyTime_notices self line) ?_ ?_ ?_ ?_ trivial
  · exact hother (by decide) handleRegister_ok
  · exact hother (by decide) handleLogin_ok
  · exact hother (by decide) handleAddTime_ok
  · exact hother (by decide) fun _ => handleQuery_ok
  · exact hother (by decide) handleSetEmail_ok
  · exact hother (by decide) fun _ => handleGetEmail_ok
  · rintro (h | h)
    · exact hother (by decide) (fun _ => handleGetPrices_ok) h
    · exact hother (by decide) (fun _ => handleGetPrices_ok) h

/-- `FireAlert` hands over the task of its copy. -/
theorem fireAlert_notices {job : Job} {rec : AlertRecord} (hrec : H rec)
    (hdue : job.due rec)
    {lastPrice : ℚ} (hprice : ∀ contract p, job = .tick contract p → lastPrice = p)
    (timestamp : Text) : KeepsNotices H job (fireAlert rec lastPrice timestamp) := by
  refine ⟨trivial, fun _ _ => ?_⟩
  cases hmsg : triggeredLine rec lastPrice timestamp with
  | none => trivial
  | some msg =>
      refine ⟨trivial, fun email _ => ?_⟩
      cases hsubject : mailSubject rec with
      | none => trivial
      | some subject =>
          cases hbody : mailBody rec lastPrice timestamp with
          | none => trivial
          | some body =>
              exact ⟨⟨rec, lastPrice, timestamp, hrec, hdue, ⟨rfl, hmsg, hsubject, hbody⟩,
                hprice⟩, fun _ _ => trivial⟩

theorem checkPriceLoop_notices {contract : Text} {p : ℚ} {todo : List AlertRecord}
    (h : ∀ rec ∈ todo, KeyedIn H contract rec) :
    KeepsNotices H (.tick contract p) (checkPriceLoop p todo) := by
  induction todo with
  | nil => trivial
  | cons rec rest ih =>
      have hrest := ih fun r hr => h r (List.mem_cons_of_mem _ hr)
      unfold checkPriceLoop
      split
      · rename_i hfires
        obtain ⟨hkeyed, hrec⟩ := h rec List.mem_cons_self
        have hdue : (Job.tick contract p).due rec := duePrice_iff.mpr ⟨hkeyed, hfires⟩
        refine ⟨trivial, fun ts _ => ⟨trivial, fun ok _ => ?_⟩⟩
        change KeepsNotices H _ (if ok = true then _ else _)
        split
        · refine ⟨trivial, fun _ _ => ?_⟩
          refine (fireAlert_notices hrec hdue ?_ ts.stamp).bind fun fits _ => ?_
          · intro contract' p' hjob
            exact (Job.tick.inj hjob).2
          · change KeepsNotices H _ (if fits = true then _ else _)
            split
            · exact hrest
            · trivial
        · exact hrest
      · exact hrest

theorem checkTimeLoop_notices {hms : Text} {todo : List AlertRecord}
    (h : ∀ rec ∈ todo, dueTime hms rec ∧ H rec) :
    KeepsNotices H (.timer hms) (checkTimeLoop todo) := by
  induction todo with
  | nil => trivial
  | cons rec rest ih =>
      have hrest := ih fun r hr => h r (List.mem_cons_of_mem _ hr)
      obtain ⟨hdue', hrec⟩ := h rec List.mem_cons_self
      have hdue : (Job.timer hms).due rec := hdue'
      refine ⟨trivial, fun ts _ => ⟨trivial, fun ok _ => ?_⟩⟩
      change KeepsNotices H _ (if ok = true then _ else _)
      split
      · refine ⟨trivial, fun lastPrice _ => ?_⟩
        refine (fireAlert_notices hrec hdue ?_ ts.stamp).bind fun fits _ => ?_
        · intro contract p hjob
          cases hjob
        · change KeepsNotices H _ (if fits = true then _ else _)
          split
          · exact hrest
          · trivial
      · exact hrest

theorem serverCode_notices (job : Job) (self : Session) :
    KeepsNotices H job (serverCode job self) := by
  cases job with
  | startUp => exact (refresh_notices _).bind fun _ _ => trivial
  | connect sock => trivial
  | line line => exact dispatch_notices self line
  | disconnect =>
      have hend : KeepsNotices H .disconnect (endSession self) :=
        notices_of_respects (endSession_respects self) (fun _ hc => hc) fun _ hc => hc
      exact hend.bind fun _ _ => trivial
  | tick contract p =>
      have hloop : KeepsNotices H (.tick contract p)
          (ask (.copyCached contract) >>= checkPriceLoop p) :=
        ⟨trivial, fun pending hpending => checkPriceLoop_notices hpending⟩
      have hcheck : KeepsNotices H (.tick contract p) (checkPriceAlert contract p) := by
        unfold checkPriceAlert
        split
        · exact ⟨trivial, fun _ _ => hloop⟩
        · exact hloop
      exact hcheck.bind fun _ _ => trivial
  | timer hms =>
      have hcheck : KeepsNotices H (.timer hms) (checkTimeAlertsAt hms) :=
        ⟨trivial, fun pending hpending => checkTimeLoop_notices hpending⟩
      exact hcheck.bind fun _ _ => trivial

/-- In a world whose rows and cached copies are in `H`, what is read comes from `H`. -/
theorem noticeAnswer_exec {w : World} (hrows : ∀ r ∈ w.db.alerts.rows, H r)
    (hcache : w.priceAlertCache.All (KeyedIn H)) (c : Call) :
    NoticeAnswer H c (exec c w).1 := by
  cases c with
  | getPendingPriceAlerts contract =>
      intro rec hrec
      simp only [exec, execWith, AlertDB.getPendingPriceAlerts, Faults.none_query,
        Table.mem_select, decide_eq_true_iff] at hrec
      exact ⟨⟨hrec.2.2, hrec.2.1⟩, hrows rec hrec.1⟩
  | getPendingTimeAlerts hms =>
      intro rec hrec
      simp only [exec, execWith, AlertDB.getPendingTimeAlerts, Faults.none_query,
        Table.mem_select, decide_eq_true_iff] at hrec
      exact ⟨dueTime_iff.mpr ⟨hrec.2.2, hrec.2.1⟩, hrows rec hrec.1⟩
  | copyCached contract => exact hcache contract
  | _ => trivial

theorem all_exec {w : World} {job : Job} (hcache : w.priceAlertCache.All (KeyedIn H))
    {c : Call} (hc : NoticeCall H job c) :
    (exec c w).2.priceAlertCache.All (KeyedIn H) := by
  cases c with
  | swapCache next => exact hc
  | removeCached alertId => exact hcache.remove alertId
  | unregisterSocket uid sock =>
      simp only [exec, execWith]
      split <;> exact hcache
  | subscribe c =>
      simp only [exec, execWith]
      split <;> exact hcache
  | _ => exact hcache

end

/-! ## Every run -/

section Runs

variable {ι : Type*} [DecidableEq ι] {w₀ : World} {memory : ι → Session}
  {t t' : List (ServerStep ι)} {c c' : Threads ι} {lbl : ServerStep ι}

/-- The row was in the table in a state that the run with trace `t` has gone through. -/
def Seen (c₀ : Threads ι) (t : List (ServerStep ι)) (c : Threads ι) (r : AlertRecord) :
    Prop :=
  ∃ t₁ t₂ c₁, t = t₁ ++ t₂ ∧ server.AnyRun c₀ t₁ c₁ ∧ server.AnyRun c₁ t₂ c ∧
    r ∈ c₁.shared.db.alerts.rows

/-- If the step hands a task to `Notify`, the task is made of a row seen before, for which
the check is due, and it is for the owner of the alert. -/
def RightNotice (c₀ : Threads ι) (t : List (ServerStep ι)) (c : Threads ι)
    (lbl : ServerStep ι) : Prop :=
  ∀ task r, lbl.kind = .call (.notify task) r → MadeFor (Seen c₀ t c) lbl.job task ∧
    ∃ row ∈ c.shared.db.alerts.rows, task.isFor row.id ∧ task.userId = row.userId

theorem run_seen (h : server.AnyRun (System.idleAt w₀ memory) t c)
    (h' : server.AnyRun c t' c') :
    server.Run (fun _ c₁ _ => ∀ r ∈ c₁.shared.db.alerts.rows,
      Seen (System.idleAt w₀ memory) (t ++ t') c' r) (System.idleAt w₀ memory) t c := by
  induction h generalizing t' with
  | nil => exact .nil
  | @snoc t c a lbl c₂ hrun hnext _ ih =>
      have hlast : server.AnyRun c ([lbl] ++ t') c' :=
        System.Run.append (.snoc (t := []) .nil hnext trivial) h'
      rw [List.append_assoc]
      exact .snoc (ih hlast) hnext fun r hr => ⟨t, [lbl] ++ t', c, rfl, hrun, hlast, hr⟩

theorem keeps_notices (hcache : w₀.priceAlertCache = fun _ => none)
    (h : server.AnyRun (System.idleAt w₀ memory) t c) :
    System.Keeps
      (fun w => w.priceAlertCache.All (KeyedIn (Seen (System.idleAt w₀ memory) t c)))
      (fun job _ => NoticeCall (Seen (System.idleAt w₀ memory) t c) job)
      (NoticeAnswer (Seen (System.idleAt w₀ memory) t c)) (fun _ _ _ => True) c := by
  have hseen := run_seen h .nil
  rw [List.append_nil] at hseen
  refine System.Run.keeps_of_ok serverCode_notices ?_ (System.keeps_idleAt ?_) hseen
  · intro t₁ c₁ i l j o hrows hpre hinv
    exact ⟨all_exec hinv hpre, noticeAnswer_exec hrows hinv o⟩
  · intro contract rec hrec
    rw [hcache] at hrec
    cases hrec

theorem rightNotice_of_step (hcache : w₀.priceAlertCache = fun _ => none)
    (h : server.AnyRun (System.idleAt w₀ memory) t c) (hstep : server.Step c lbl c') :
    RightNotice (System.idleAt w₀ memory) t c lbl := by
  rintro task r hkind
  obtain ⟨i, self, job, kind⟩ := lbl
  obtain rfl : kind = .call (.notify task) r := hkind
  have hmade : MadeFor _ job task := (keeps_notices hcache h).pre_of_step hstep
  refine ⟨hmade, ?_⟩
  obtain ⟨rec, lastPrice, timestamp, ⟨t₁, t₂, c₁, -, -, h₂, hrow⟩, -, htells, -⟩ := hmade
  obtain ⟨row, hmem, hid, howner⟩ := owner_stays h₂ hrow
  exact ⟨row, hmem, (htells.isFor_iff _).mpr hid.symm, htells.userId.trans howner.symm⟩

/-- In every run of any number of threads, from an empty cache on. -/
theorem rightNotices_of_run (hcache : w₀.priceAlertCache = fun _ => none)
    (h : server.AnyRun (System.idleAt w₀ memory) t c) :
    server.Run (RightNotice (System.idleAt w₀ memory)) (System.idleAt w₀ memory) t c :=
  h.strengthen fun _ _ _ _ _ hrun hnext _ =>
    rightNotice_of_step hcache hrun (System.step_of_next server hnext)

end Runs

set_option maxRecDepth 10000 in
theorem rightNotices_of_tick :
    ∃ t c, server.Run (RightNotice (System.idleAt newWorld fun _ : Fin 2 => .new 0))
      (System.idleAt newWorld fun _ => .new 0) t c ∧
      c.shared.tasks.any (NotifyTask.isFor 1) := by
  have hstate : (server.follow (System.idleAt newWorld fun _ => .new 0) tickNotifies).map
      (fun out => out.2.shared.tasks.any (NotifyTask.isFor 1)) = some true := by
    decide +kernel
  obtain ⟨⟨t, c⟩, hfollow, hany⟩ := Option.map_eq_some_iff.mp hstate
  exact ⟨t, c, rightNotices_of_run rfl (System.run_of_follow hfollow), hany⟩

/-! ## One task for each trigger -/

/-- The task of the alert is handed to `Notify`. -/
def Call.tells (alertId : ℤ) : (c : Call) → c.Ans → Bool
  | .notify task, _ => task.isFor alertId
  | _, _ => false

section

variable (alertId : ℤ)

/-- The code hands over one task of the alert for each `TriggerAlert` of it. -/
abbrev Evens {α : Type} (p : Action α) (fin : ℕ → α → Prop) (n : ℕ) : Prop :=
  p.Balances Answer (Call.triggers alertId) (Call.tells alertId) fin n

/-- Nothing is owed if the texts have fitted. -/
abbrev EvenIfFits (n : ℕ) (fits : Bool) : Prop := fits = true → n = 0

variable {alertId}

/-- The calls that neither trigger nor tell. -/
def Call.untold : Call → Prop
  | .triggerAlert _ _ | .notify _ => False
  | _ => True

theorem evens_call {α : Type} {c : Call} {k : c.Ans → Action α}
    {fin : ℕ → α → Prop} {n : ℕ} (hc : c.untold) (hk : ∀ r, Evens alertId (k r) fin n) :
    Evens alertId (.call c k) fin n := by
  refine balances_call (fun r h => ?_) (fun r h => ?_) fun r _ => hk r
  · cases c <;> first | exact hc | cases h
  · cases c <;> first | exact hc | cases h

theorem fireAlert_evens (rec : AlertRecord) (p : ℚ) (ts : Text) :
    Evens alertId (fireAlert rec p ts) EvenIfFits (decide (rec.id = alertId)).toNat := by
  obtain h | h | ⟨msg, subject, body, hmsg, h⟩ := fireAlert_cases rec p ts
  · rw [h]
    exact evens_call trivial fun _ h => absurd h Bool.false_ne_true
  · rw [h]
    exact evens_call trivial fun _ => evens_call trivial fun _ h =>
      absurd h Bool.false_ne_true
  · rw [h]
    refine evens_call trivial fun _ => evens_call trivial fun email _ _ => ?_
    have htells : NotifyTask.isFor alertId ⟨rec.userId, msg, email, subject, body⟩ =
        decide (rec.id = alertId) := by
      simp only [NotifyTask.isFor, splitLine_triggeredLine hmsg, Option.some_inj,
        fmtInt_injective.eq_iff]
    simp only [Call.tells, htells]
    refine ⟨fun hid => ?_, fun _ => Nat.sub_self _⟩
    rw [hid]
    exact Nat.one_pos

theorem trigger_evens {rec : AlertRecord} {ts : Text} {yes no : Action Bool}
    (hyes : Evens alertId yes EvenIfFits (decide (rec.id = alertId)).toNat)
    (hno : Evens alertId no EvenIfFits 0) :
    Evens alertId (.call (.triggerAlert rec ts) fun ok : Bool => if ok then yes else no)
      EvenIfFits 0 := by
  intro ok _
  refine ⟨fun h => absurd h Bool.false_ne_true, ?_⟩
  change Balances _ _ _ _ (0 + (ok && decide (rec.id = alertId)).toNat - 0)
    (if ok = true then yes else no)
  cases ok with
  | true => simpa using hyes
  | false => simpa using hno

/-- The rest of a loop goes on if the texts have fitted. -/
theorem fits_evens {rest : Action Bool} (hrest : Evens alertId rest EvenIfFits 0) (n : ℕ)
    (fits : Bool) (hn : EvenIfFits n fits) :
    Evens alertId (if fits then rest else return false) EvenIfFits n := by
  cases fits with
  | true =>
      obtain rfl := hn rfl
      exact hrest
  | false => exact fun h => absurd h Bool.false_ne_true

theorem checkPriceLoop_evens (p : ℚ) (todo : List AlertRecord) :
    Evens alertId (checkPriceLoop p todo) EvenIfFits 0 := by
  induction todo with
  | nil => exact fun _ => rfl
  | cons rec rest ih =>
      unfold checkPriceLoop
      split
      · refine evens_call trivial fun ts => trigger_evens ?_ ih
        exact evens_call trivial fun _ =>
          (fireAlert_evens rec p ts.stamp).bind (fits_evens ih)
      · exact ih

theorem checkTimeLoop_evens (todo : List AlertRecord) :
    Evens alertId (checkTimeLoop todo) EvenIfFits 0 := by
  induction todo with
  | nil => exact fun _ => rfl
  | cons rec rest ih =>
      refine evens_call trivial fun ts => trigger_evens ?_ ih
      exact evens_call trivial fun lastPrice =>
        (fireAlert_evens rec _ ts.stamp).bind (fits_evens ih)

/-- The end of a check ends the process where a text has not fitted. -/
theorem engineJob_evens {check : Action Bool} (h : Evens alertId check EvenIfFits 0)
    (self : Session) :
    Evens alertId (engineJob self check)
      (fun n out => out.2.ended = false → n = 0) 0 := by
  refine h.bind fun n fits hn => ?_
  cases fits with
  | true => exact fun _ => hn rfl
  | false => exact fun h => absurd h.symm Bool.false_ne_true

theorem serverCode_evens (job : Job) (self : Session) :
    Evens alertId (serverCode job self) (fun n out => out.2.ended = false → n = 0) 0 := by
  have hother : (∀ c r, ServerCall (fun _ _ => True) job self c →
      ¬ c.triggers alertId r ∧ ¬ c.tells alertId r) →
      Evens alertId (serverCode job self) (fun n out => out.2.ended = false → n = 0) 0 :=
    fun h => (server_contract.code job self).balances h fun _ _ _ => rfl
  cases job with
  | tick contract p =>
      refine engineJob_evens ?_ self
      have hcheck : Evens alertId (ask (.copyCached contract) >>= checkPriceLoop p)
          EvenIfFits 0 := evens_call trivial fun pending => checkPriceLoop_evens p pending
      unfold checkPriceAlert
      split
      · exact evens_call trivial fun _ => hcheck
      · exact hcheck
  | timer hms =>
      have hcheck : Evens alertId (checkTimeAlertsAt hms) EvenIfFits 0 :=
        evens_call trivial fun pending => checkTimeLoop_evens pending
      exact engineJob_evens hcheck self
  | _ =>
      refine hother fun c r hc => ⟨fun htriggers => ?_, fun htells => ?_⟩
      · cases c <;> first | exact hc | cases htriggers
      · cases c <;> first | exact hc | cases htells

end

section Runs

variable {ι : Type*} [DecidableEq ι] {w₀ : World} {memory : ι → Session}
  {t : List (ServerStep ι)} {c c' : Threads ι} {lbl : ServerStep ι}

/-- No job has ended the process. -/
def StaysAlive (_t : List (ServerStep ι)) (_c : Threads ι) (lbl : ServerStep ι) : Prop :=
  ∀ reply, lbl.kind = .finish reply → reply.ended = false

/-- While the process lives, the tasks of an alert are as many as its triggers whenever
all threads are idle. -/
theorem triggers_eq_tells (alertId : ℤ)
    (h : server.Run StaysAlive (System.idleAt w₀ memory) t c)
    (hidle : ∀ i, (c.thread i).isIdle) :
    t.countP (fun lbl => lbl.does (Call.triggers alertId)) =
      t.countP fun lbl => lbl.does (Call.tells alertId) :=
  h.earned_eq_spent serverCode_evens answer_exec (fun _ _ _ hok => hok) hidle

/-- The task handed to `Notify` in a step. -/
def ServerStep.told {ι : Type*} (lbl : ServerStep ι) : List NotifyTask :=
  match lbl.kind with
  | .call (.notify task) _ => [task]
  | _ => []

/-- `World.tasks` are the tasks handed to `Notify`. -/
theorem tasks_of_step (h : server.Step c lbl c') :
    c'.shared.tasks = c.shared.tasks ++ lbl.told := by
  cases h with
  | start => exact (List.append_nil _).symm
  | finish => exact (List.append_nil _).symm
  | call i self job o k hbusy =>
      cases o with
      | notify task => rfl
      | _ =>
          refine (exec_tasks (fun task h => ?_) c.shared).trans (List.append_nil _).symm
          cases h

theorem countP_tasks (alertId : ℤ)
    {ok : List (ServerStep ι) → Threads ι → ServerStep ι → Prop}
    (h : server.Run ok (System.idleAt w₀ memory) t c) :
    c.shared.tasks.countP (NotifyTask.isFor alertId) =
      w₀.tasks.countP (NotifyTask.isFor alertId) +
        t.countP fun lbl => lbl.does (Call.tells alertId) := by
  induction h with
  | nil => rfl
  | @snoc _ _ _ lbl _ _ hnext _ ih =>
      rw [tasks_of_step (System.step_of_next server hnext), List.countP_append,
        System.countP_concat, ih, Nat.add_assoc]
      congr 1
      obtain ⟨i, self, job, kind⟩ := lbl
      cases kind with
      | call o r =>
          cases o with
          | notify task =>
              change _ + [task].countP _ = _ + (task.isFor alertId).toNat
              rw [List.countP_singleton]
              cases task.isFor alertId <;> rfl
          | _ => rfl
      | _ => rfl

/-- Every task handed to `Notify` is for the owner of its alert. -/
theorem owner_of_tasks (hcache : w₀.priceAlertCache = fun _ => none)
    (htasks : w₀.tasks = []) (h : server.AnyRun (System.idleAt w₀ memory) t c) :
    ∀ task ∈ c.shared.tasks, ∃ row ∈ c.shared.db.alerts.rows,
      task.isFor row.id ∧ task.userId = row.userId := by
  induction h with
  | nil =>
      intro task htask
      rw [System.idleAt, htasks] at htask
      cases htask
  | @snoc t c a lbl c' hrun hnext _ ih =>
      intro task htask
      have hstep := System.step_of_next server hnext
      have hlast : server.AnyRun c [lbl] c' := .snoc (t := []) .nil hnext trivial
      have hbefore : ∃ row ∈ c.shared.db.alerts.rows,
          task.isFor row.id ∧ task.userId = row.userId := by
        rw [tasks_of_step hstep] at htask
        rcases List.mem_append.mp htask with hold | hnew
        · exact ih task hold
        · have hright := rightNotice_of_step hcache hrun hstep
          obtain ⟨i, self, job, kind⟩ := lbl
          cases kind with
          | call o r =>
              cases o with
              | notify task' =>
                  obtain rfl := List.mem_singleton.mp hnew
                  exact (hright task r rfl).2
              | _ => cases hnew
          | _ => cases hnew
      obtain ⟨row, hrow, hfor, howner⟩ := hbefore
      obtain ⟨row', hrow', hid, huser⟩ := owner_stays hlast hrow
      exact ⟨row', hrow', hid.symm ▸ hfor, howner.trans huser.symm⟩

end Runs

end CloudAlert
