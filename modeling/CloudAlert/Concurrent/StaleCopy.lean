import CloudAlert.Concurrent.Threads
import CloudAlert.Engine.Checks

/-!
# Triggers on stale copies

A check decides on a copy of an alert and calls `TriggerAlert` later, and all that
call looks at is `status=0`. A MODIFY that takes effect in between leaves the status
at 0, so the alert is triggered on terms its owner has replaced
(`replaced_alert_is_triggered`).

`rightTriggers_of_current` says that this is the only way to go wrong: where no
MODIFY of the alert succeeds between the query that returned the copy and the
trigger, the row has the terms of the copy and is due.
-/

namespace CloudAlert

open Program

/-- What the owner of an alert sets. -/
structure SameTerms (r rec : AlertRecord) : Prop where
  alertType : r.alertType = rec.alertType
  contract : r.contract = rec.contract
  triggerPrice : r.triggerPrice = rec.triggerPrice
  condition : r.condition = rec.condition
  triggerTime : r.triggerTime = rec.triggerTime

/-- The alerts a check is for: a tick is for the price alerts of its contract that
its price satisfies, a timer check for the time alerts of its time. -/
def Job.due : Job → AlertRecord → Bool
  | .tick contract lastPrice, r => duePrice contract lastPrice r
  | .timer hms, r => dueTime hms r
  | _, _ => false

section

variable {ι : Type*}

/-- If the step is a `TriggerAlert` that succeeds, the row is due at that moment, on
the terms the check has seen. -/
def RightTrigger (_t : List (ServerStep ι)) (c : Threads ι) (lbl : ServerStep ι) : Prop :=
  ∀ rec ts, lbl.kind = .call (.triggerAlert rec ts) true →
    ∃ r ∈ c.shared.db.alerts.rows, r.id = rec.id ∧ lbl.job.due r ∧ SameTerms r rec

/-- A query has returned the copy and no MODIFY of its alert has succeeded since. -/
inductive Current (rec : AlertRecord) : List (ServerStep ι) → Prop where
  | read {t : List (ServerStep ι)} {lbl : ServerStep ι}
      (hread : lbl.does (Call.reads rec)) :
      Current rec (t ++ [lbl])
  | later {t : List (ServerStep ι)} {lbl : ServerStep ι} (h : Current rec t)
      (hkept : ¬ lbl.does (Call.modifies rec.id)) : Current rec (t ++ [lbl])

/-- If the step is a `TriggerAlert` of a pending alert, its copy is current. -/
def TriggersCurrent (t : List (ServerStep ι)) (c : Threads ι) (lbl : ServerStep ι) :
    Prop :=
  ∀ rec ts ok, lbl.kind = .call (.triggerAlert rec ts) ok →
    (∃ r ∈ c.shared.db.alerts.rows, r.id = rec.id ∧ r.status = 0) → Current rec t

end

/-! ## Rows keep their terms -/

theorem SameTerms.refl (r : AlertRecord) : SameTerms r r := ⟨rfl, rfl, rfl, rfl, rfl⟩

theorem SameTerms.trans {r r' r'' : AlertRecord} (h : SameTerms r r')
    (h' : SameTerms r' r'') : SameTerms r r'' :=
  ⟨h.alertType.trans h'.alertType, h.contract.trans h'.contract,
    h.triggerPrice.trans h'.triggerPrice, h.condition.trans h'.condition,
    h.triggerTime.trans h'.triggerTime⟩

/-- Only a MODIFY that succeeds changes the terms of a row. -/
theorem sameTerms_apply {c : Call} {w : World} {r : AlertRecord}
    (hr : r ∈ w.db.alerts.rows) (hkept : ¬ c.modifies r.id (exec c w).1) :
    SameTerms (c.apply r) r := by
  rcases apply_eq_or_edit c r with h | h
  · rw [h]
    exact .refl r
  · generalize c.apply r = r' at h
    cases h with
    | trigger => exact ⟨rfl, rfl, rfl, rfl, rfl⟩
    | delete => exact ⟨rfl, rfl, rfl, rfl, rfl⟩
    | modifyPrice hid howner hlive =>
        exact absurd (modifies_price hr hid howner hlive) hkept
    | modifyTime hid howner hlive =>
        exact absurd (modifies_time hr hid howner hlive) hkept

theorem mem_alerts_of_reads {c : Call} {w : World} {rec : AlertRecord}
    (h : c.reads rec (exec c w).1) : rec ∈ (exec c w).2.db.alerts.rows := by
  cases c with
  | getPendingPriceAlerts contract =>
      have hmem := of_decide_eq_true h
      simp only [exec, execWith, AlertDB.getPendingPriceAlerts, Faults.none_query,
        Table.mem_select] at hmem
      exact hmem.1
  | getPendingTimeAlerts s =>
      have hmem := of_decide_eq_true h
      simp only [exec, execWith, AlertDB.getPendingTimeAlerts, Faults.none_query,
        Table.mem_select] at hmem
      exact hmem.1
  | _ => cases h

/-! ## Current copies -/

section Current

variable {ι : Type*} {t : List (ServerStep ι)} {lbl : ServerStep ι} {rec : AlertRecord}

theorem current_concat (h : Current rec (t ++ [lbl])) :
    lbl.does (Call.reads rec) ∨ Current rec t ∧ ¬ lbl.does (Call.modifies rec.id) := by
  generalize ht : t ++ [lbl] = t' at h
  cases h with
  | read hread =>
      obtain ⟨-, hlbl⟩ := List.append_inj' ht rfl
      exact .inl (List.singleton_inj.mp hlbl ▸ hread)
  | later hcur hkept =>
      obtain ⟨rfl, hlbl⟩ := List.append_inj' ht rfl
      obtain rfl := List.singleton_inj.mp hlbl
      exact .inr ⟨hcur, hkept⟩

theorem not_current_nil : ¬ Current rec ([] : List (ServerStep ι)) := by
  intro h
  generalize ht : ([] : List (ServerStep ι)) = t at h
  cases h <;> exact absurd ht.symm (by simp)

end Current

section Runs

variable {ι : Type*} [DecidableEq ι]
  {ok : List (ServerStep ι) → Threads ι → ServerStep ι → Prop}
  {w₀ : World} {memory : ι → Session} {t : List (ServerStep ι)} {c c' : Threads ι}
  {lbl : ServerStep ι} {rec : AlertRecord}

/-- The row of a current copy has the terms of the copy. -/
theorem row_of_current (h : server.Run ok (System.idleAt w₀ memory) t c)
    (hcur : Current rec t) :
    ∃ r ∈ c.shared.db.alerts.rows, r.id = rec.id ∧ SameTerms r rec := by
  induction h with
  | nil => exact absurd hcur not_current_nil
  | snoc hrun hnext _ ih =>
      have hstep := System.step_of_next server hnext
      rcases current_concat hcur with hread | ⟨hcur, hkept⟩
      · cases hstep with
        | start => cases hread
        | call i self job o k => exact ⟨rec, mem_alerts_of_reads hread, rfl, .refl rec⟩
        | finish => cases hread
      · obtain ⟨r, hr, hid, hterms⟩ := ih hcur
        refine ⟨_, mem_alerts_after_step hstep hr, ?_⟩
        cases hstep with
        | start => exact ⟨hid, hterms⟩
        | call i self job o k =>
            refine ⟨(apply_id o r).trans hid, (sameTerms_apply hr ?_).trans hterms⟩
            rw [hid]
            exact hkept
        | finish => exact ⟨hid, hterms⟩

/-! ## Due copies -/

/-- The job whose code calls `TriggerAlert` is a check the copy is due for. -/
theorem due_of_serverCall {job : Job} {self : Session} {ts : Text}
    (h : ServerCall Keyed job self (.triggerAlert rec ts)) : job.due rec := by
  cases job with
  | tick contract p => exact duePrice_iff.mpr h
  | timer hms => exact dueTime_iff.mpr h
  | _ => exact h.elim

/-- Being due is a matter of terms and status. -/
theorem SameTerms.due {r : AlertRecord} (h : SameTerms r rec) (hstatus : r.status = 0)
    {job : Job} (hdue : job.due rec) : job.due r := by
  cases job with
  | tick contract p =>
      simp only [Job.due, duePrice, decide_eq_true_iff] at hdue ⊢
      rw [h.alertType, h.contract, h.condition, h.triggerPrice]
      exact ⟨hstatus, hdue.2⟩
  | timer hms =>
      simp only [Job.due, dueTime, decide_eq_true_iff] at hdue ⊢
      rw [h.alertType, h.triggerTime]
      exact ⟨hstatus, hdue.2⟩
  | _ => cases hdue

/-- One step: a current copy is triggered rightly. -/
theorem rightTrigger_of_current (hcache : w₀.priceAlertCache = fun _ => none)
    (h : server.Run ok (System.idleAt w₀ memory) t c) (hstep : server.Step c lbl c')
    (hcur : TriggersCurrent t c lbl) : RightTrigger t c lbl := by
  have hkeyed : WellKeyed w₀.priceAlertCache := hcache ▸ wellKeyed_empty
  have hkeeps := h.keeps server_contract_keyed (System.keeps_idleAt hkeyed)
  rintro rec ts hkind
  obtain ⟨i, self, job, kind⟩ := lbl
  obtain rfl : kind = .call (.triggerAlert rec ts) true := hkind
  have hdue : job.due rec := due_of_serverCall (hkeeps.pre_of_step hstep)
  obtain ⟨r, hr, hid, hstatus⟩ := triggerAlert_true.mp hstep.call_inv.1.symm
  obtain ⟨r', hr', hid', hterms⟩ :=
    row_of_current h (hcur rec ts _ rfl ⟨r, hr, hid, hstatus⟩)
  obtain rfl := c.shared.db.alerts.eq_of_key hr hr' (hid.trans hid'.symm)
  exact ⟨r, hr, hid, hterms.due hstatus hdue, hterms⟩

/-- From the start of the server on, in every run all of whose triggers are made
with current copies, every trigger is right. -/
theorem rightTriggers_of_current (hcache : w₀.priceAlertCache = fun _ => none)
    (h : server.Run TriggersCurrent (System.idleAt w₀ memory) t c) :
    server.Run RightTrigger (System.idleAt w₀ memory) t c :=
  h.strengthen fun _ _ _ _ _ hrun hnext hcur =>
    rightTrigger_of_current hcache hrun (System.step_of_next server hnext) hcur

end Runs

/-- A new server on a database with one time alert, set to 09:30:00. -/
def alarmWorld : World :=
  { newWorld with db := (AlertDB.created.addTimeAlert .none 1 (ascii "rb2510")
      (ascii "09:30:00") (newWorld.clock 0).stamp).2 }

/-- The timer check of that time triggers the alert it has just read. -/
theorem alarm_is_triggered :
    ∃ t c, server.Run RightTrigger
      (System.idleAt alarmWorld fun _ : Fin 1 => .new 0) t c ∧
      t.any fun lbl => lbl.does (Call.triggers 1) := by
  have hstart :
      server.Run TriggersCurrent (System.idleAt alarmWorld fun _ : Fin 1 => .new 0)
      _ _ := .snoc .nil (a := .start 0 (.timer (cstr (ascii "09:30:00")))) rfl nofun
  have hread := hstart.snoc (a := .step 0) rfl nofun
  have htime := hread.snoc (a := .step 0) rfl nofun
  have htrigger := htime.snoc (a := .step 0) rfl ?_
  · exact ⟨_, _, rightTriggers_of_current rfl htrigger, by decide +kernel⟩
  · rintro rec ts ok hkind -
    cases hkind
    exact .later (.read (by decide +kernel)) (by decide +kernel)

/-! ## A late trigger -/

/-- The market-data thread takes a copy of ann's alert for a tick of 3600. Before it
calls `TriggerAlert`, ann changes the alert to `rb2510 >= 4000`. -/
def modifyDuringTick : List (Choice (Fin 2) Job) :=
  annAddsAlert ++
  Choice.start 1 (Job.tick (cstr (ascii "rb2510")) 3600) :: List.replicate 3
    (Choice.step 1) ++
  [Choice.start 0 (Job.line (ascii "MODIFY_PRICE 1 rb2510 4000 0")), Choice.step 0]

set_option maxRecDepth 10000 in
/-- The tick's next step triggers the alert, which is not due any more. -/
theorem replaced_alert_is_triggered :
    ∃ t c lbl c', server.AnyRun (System.idleAt newWorld fun _ : Fin 2 => .new 0) t c ∧
      server.Step c lbl c' ∧ ¬ RightTrigger t c lbl := by
  have hstate : (server.follow (System.idleAt newWorld fun _ => .new 0)
      modifyDuringTick).bind (fun out => (server.next out.2 (.step 1)).map fun out' =>
        (out'.1.does (Call.triggers 1), out.2.shared.db.alerts.rows.any out'.1.job.due)) =
      some (true, false) := by decide +kernel
  obtain ⟨⟨t, c⟩, hfollow, hrest⟩ := Option.bind_eq_some_iff.mp hstate
  obtain ⟨⟨lbl, c'⟩, hnext, hdoes⟩ := Option.map_eq_some_iff.mp hrest
  obtain ⟨htriggers, hnone⟩ := Prod.mk.inj hdoes
  refine ⟨t, c, lbl, c', System.run_of_follow hfollow, System.step_of_next server hnext,
    fun hright => ?_⟩
  obtain ⟨rec, ts, hkind, -⟩ := exists_of_triggers htriggers
  obtain ⟨r, hr, -, hdue, -⟩ := hright rec ts hkind
  exact List.any_eq_false.mp hnone r hr hdue

end CloudAlert
