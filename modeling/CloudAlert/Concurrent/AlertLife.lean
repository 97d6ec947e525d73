import CloudAlert.Concurrent.Threads
import CloudAlert.Program.Budget

/-!
# The life of an alert

What any number of concurrent checks and sessions can do to an alert, whatever the
cache holds. One step moves its row along an edge of the status graph (`RowStep`),
which is a matter of the WHERE clauses of four UPDATE statements. Over a run, an
alert is triggered at most once for each time it is armed, by its insertion and by
each MODIFY (`triggers_add_armed_le`), and every `FireAlert` is preceded by a
`TriggerAlert` of its own.

A thread calls `FireAlert` some steps after its `TriggerAlert`. By then the alert can
have been armed again and deleted (`notified_after_deletion`), so what is never
notified is the arming that ended with the DELETE, not the alert.
-/

namespace CloudAlert

open Program

/-! ## One step -/

/-- The three values of `status`. -/
def AlertDB.KnownStatus (db : AlertDB) : Prop :=
  ∀ r ∈ db.alerts.rows, r.status = 0 ∨ r.status = 1 ∨ r.status = 2

section

variable {ι : Type*}

/-- The edges of the status graph, and the step that takes each: the status of the
row `r` after the step `lbl`. -/
inductive StatusEdge (lbl : ServerStep ι) (r : AlertRecord) : ℤ → Prop where
  | kept : StatusEdge lbl r r.status
  | trigger (hlbl : lbl.does (Call.triggers r.id)) (hfrom : r.status = 0) :
      StatusEdge lbl r 1
  | modify (hlbl : lbl.does (Call.modifies r.id)) (howner : lbl.memory.userId = r.userId)
      (hfrom : r.status = 0 ∨ r.status = 1) : StatusEdge lbl r 0
  | delete (hlbl : lbl.does (Call.deletes r.id)) (howner : lbl.memory.userId = r.userId)
      (hfrom : r.status = 0 ∨ r.status = 1) : StatusEdge lbl r 2

/-- What a step makes of the row `r`. -/
structure RowStep (lbl : ServerStep ι) (r r' : AlertRecord) : Prop where
  id : r'.id = r.id
  userId : r'.userId = r.userId
  createdAt : r'.createdAt = r.createdAt
  edge : StatusEdge lbl r r'.status
  deleted : r.status = 2 → r' = r

end

/-- The user in the WHERE clause of DELETE and MODIFY. -/
def Call.owner : Call → Option ℤ
  | .deleteAlert _ uid | .modifyPriceAlert _ uid _ _ _ | .modifyTimeAlert _ uid _ _ =>
      some uid
  | _ => none

theorem owner_of_serverCall {copy : Text → AlertRecord → Prop} {job : Job}
    {self : Session}
    {c : Call} {uid : ℤ} (hc : ServerCall copy job self c) (h : c.owner = some uid) :
    self.userId = uid := by
  cases c with
  | deleteAlert id uid' | modifyTimeAlert id uid' _ _ =>
      obtain rfl := Option.some.inj h
      cases job with
      | line line => exact hc.2.2.symm
      | _ => exact hc.elim
  | modifyPriceAlert id uid' c p cond =>
      obtain rfl := Option.some.inj h
      cases job with
      | line line => exact hc.2.2.1.symm
      | _ => exact hc.elim
  | _ => cases h

/-- An edit of a row is an edge of the graph: the row makes the UPDATE statement
succeed. -/
theorem statusEdge_of_edit {ι : Type*} {i : ι} {self : Session} {job : Job} {c : Call}
    {w : World} (hc : ServerCall (fun _ _ => True) job self c) {r r' : AlertRecord}
    (hr : r ∈ w.db.alerts.rows) (hknown : w.db.KnownStatus) (h : AlertEdit c r r') :
    StatusEdge (⟨i, self, job, .call c (exec c w).1⟩ : ServerStep ι) r r'.status := by
  have hlive : r.status ≠ 2 → r.status = 0 ∨ r.status = 1 := by
    rcases hknown r hr with h | h | h <;> simp [h]
  cases h with
  | trigger hid hpending => exact .trigger (triggers_exec hr hid hpending) hpending
  | delete hid howner hne =>
      exact .delete (deletes_exec hr hid howner hne)
        ((owner_of_serverCall hc rfl).trans howner.symm) (hlive hne)
  | modifyPrice hid howner hne =>
      exact .modify (modifies_price hr hid howner hne)
        ((owner_of_serverCall hc rfl).trans howner.symm) (hlive hne)
  | modifyTime hid howner hne =>
      exact .modify (modifies_time hr hid howner hne)
        ((owner_of_serverCall hc rfl).trans howner.symm) (hlive hne)

/-- A deleted row satisfies no WHERE clause. -/
theorem apply_deleted (c : Call) {r : AlertRecord} (h : r.status = 2) :
    c.apply r = r := by
  rcases apply_eq_or_edit c r with hr | hedit
  · exact hr
  · generalize c.apply r = r' at hedit
    cases hedit with
    | trigger hid hpending => omega
    | delete hid howner hlive => exact absurd h hlive
    | modifyPrice hid howner hlive => exact absurd h hlive
    | modifyTime hid howner hlive => exact absurd h hlive

theorem AlertDB.KnownStatus.exec {w : World} (h : w.db.KnownStatus) (c : Call) :
    (CloudAlert.exec c w).2.db.KnownStatus := by
  intro r' hr'
  rcases mem_alerts_before c hr' with ⟨r, hr, rfl⟩ | hnew
  · rcases apply_eq_or_edit c r with hsame | hedit
    · rw [hsame]
      exact h r hr
    · generalize c.apply r = r' at hedit
      cases hedit with
      | trigger => exact .inr (.inl rfl)
      | delete => exact .inr (.inr rfl)
      | modifyPrice => exact .inl rfl
      | modifyTime => exact .inl rfl
  · cases c with
    | addPriceAlert uid c p cond =>
        obtain rfl := List.mem_singleton.mp hnew
        exact .inl rfl
    | addTimeAlert uid c s =>
        obtain rfl := List.mem_singleton.mp hnew
        exact .inl rfl
    | _ => cases hnew

/-! ## Armings -/

/-- 0 once the alert has been triggered or deleted, 1 before that and after each
MODIFY. -/
def AlertDB.armed (db : AlertDB) (alertId : ℤ) : ℕ :=
  if ∃ r ∈ db.alerts.rows, r.id = alertId ∧ r.status ≠ 0 then 0 else 1

theorem AlertDB.armed_le_one (db : AlertDB) (alertId : ℤ) : db.armed alertId ≤ 1 := by
  unfold armed
  split <;> omega

theorem AlertDB.armed_eq_zero {db : AlertDB} {r : AlertRecord} (hr : r ∈ db.alerts.rows)
    (hstatus : r.status ≠ 0) : db.armed r.id = 0 :=
  if_pos ⟨r, hr, rfl, hstatus⟩

theorem AlertDB.armed_of_pending {db : AlertDB} {r : AlertRecord}
    (hr : r ∈ db.alerts.rows) (hstatus : r.status = 0) : db.armed r.id = 1 := by
  refine if_neg ?_
  rintro ⟨r', hr', hid, hstatus'⟩
  obtain rfl := db.alerts.eq_of_key hr' hr hid
  exact hstatus' hstatus

/-- A row keeps a status other than 0 through every call but a MODIFY. -/
theorem status_apply_ne {c : Call} {w : World} {r : AlertRecord}
    (hr : r ∈ w.db.alerts.rows)
    (hstatus : r.status ≠ 0) (hkept : ¬ c.modifies r.id (exec c w).1) :
    (c.apply r).status ≠ 0 := by
  rcases apply_eq_or_edit c r with h | h
  · rw [h]
    exact hstatus
  · generalize c.apply r = r' at h
    cases h with
    | trigger => exact Int.one_ne_zero
    | delete => exact two_ne_zero
    | modifyPrice hid howner hlive =>
        exact absurd (modifies_price hr hid howner hlive) hkept
    | modifyTime hid howner hlive =>
        exact absurd (modifies_time hr hid howner hlive) hkept

/-- A trigger uses up what arms the alert, and only a MODIFY arms it again. -/
theorem armed_exec (alertId : ℤ) (c : Call) (w : World) :
    (c.triggers alertId (exec c w).1).toNat + (exec c w).2.db.armed alertId ≤
      w.db.armed alertId + (c.modifies alertId (exec c w).1).toNat := by
  have hone := (exec c w).2.db.armed_le_one alertId
  by_cases hmodify : c.modifies alertId (exec c w).1 = true
  · have htrigger : c.triggers alertId (exec c w).1 = false := by
      cases c <;> first | rfl | cases hmodify
    rw [hmodify, htrigger]
    simp only [Bool.toNat_true, Bool.toNat_false]
    omega
  · rw [Bool.eq_false_iff.mpr hmodify]
    by_cases htrigger : c.triggers alertId (exec c w).1 = true
    · rw [htrigger]
      cases c with
      | triggerAlert rec ts =>
          obtain ⟨hok, hid⟩ := Bool.and_eq_true_iff.mp htrigger
          obtain rfl : rec.id = alertId := of_decide_eq_true hid
          obtain ⟨r, hr, hrid, hpending⟩ := triggerAlert_true.mp hok
          have hguard : (Call.triggerAlert rec ts).guard r :=
            decide_eq_true ⟨hrid, hpending⟩
          have hafter := mem_alerts_after (.triggerAlert rec ts) hr
          have harmed := AlertDB.armed_of_pending hr hpending
          have hzero := AlertDB.armed_eq_zero hafter (by
            rw [Call.apply, if_pos hguard]
            exact Int.one_ne_zero)
          rw [apply_id] at hzero
          rw [hrid] at harmed hzero
          rw [harmed, hzero]
          simp
      | _ => cases htrigger
    · rw [Bool.eq_false_iff.mpr htrigger]
      simp only [Bool.toNat_false, Nat.zero_add, Nat.add_zero]
      by_cases hout : ∃ r ∈ w.db.alerts.rows, r.id = alertId ∧ r.status ≠ 0
      · obtain ⟨r, hr, rfl, hstatus⟩ := hout
        have hzero := AlertDB.armed_eq_zero (mem_alerts_after c hr)
          (status_apply_ne hr hstatus hmodify)
        rw [apply_id] at hzero
        omega
      · have harmed : w.db.armed alertId = 1 := if_neg hout
        omega

theorem not_touched_of_deleted {c : Call} {w : World} {r : AlertRecord}
    (hr : r ∈ w.db.alerts.rows) (hdeleted : r.status = 2) :
    ¬ c.triggers r.id (exec c w).1 ∧ ¬ c.modifies r.id (exec c w).1 := by
  have hno : ∀ {id : ℤ} {P : AlertRecord → Prop}, (∀ r, P r → r.status ≠ 2) → id = r.id →
      ¬ ∃ r' ∈ w.db.alerts.rows, r'.id = id ∧ P r' := by
    rintro id P hP rfl ⟨r', hr', hid, hPr'⟩
    obtain rfl := w.db.alerts.eq_of_key hr' hr hid
    exact hP r' hPr' hdeleted
  cases c with
  | triggerAlert rec ts =>
      refine ⟨fun h => ?_, Bool.false_ne_true⟩
      obtain ⟨hok, hid⟩ := Bool.and_eq_true_iff.mp h
      exact hno (fun r h => by omega) (of_decide_eq_true hid) (triggerAlert_true.mp hok)
  | modifyPriceAlert id uid c p cond =>
      refine ⟨Bool.false_ne_true, fun h => ?_⟩
      obtain ⟨hok, hid⟩ := Bool.and_eq_true_iff.mp h
      exact hno (fun r h => h.2) (of_decide_eq_true hid) (modifyPriceAlert_true.mp hok)
  | modifyTimeAlert id uid c s =>
      refine ⟨Bool.false_ne_true, fun h => ?_⟩
      obtain ⟨hok, hid⟩ := Bool.and_eq_true_iff.mp h
      exact hno (fun r h => h.2) (of_decide_eq_true hid) (modifyTimeAlert_true.mp hok)
  | _ => exact ⟨Bool.false_ne_true, Bool.false_ne_true⟩

section Runs

variable {ι : Type*} [DecidableEq ι]
  {ok : List (ServerStep ι) → Threads ι → ServerStep ι → Prop}
  {w₀ : World} {memory : ι → Session} {t : List (ServerStep ι)} {c c' : Threads ι}
  {lbl : ServerStep ι}

/-- Every row makes its way through the status graph. -/
theorem rowStep_of_step (h : server.Run ok (System.idleAt w₀ memory) t c)
    (hstep : server.Step c lbl c') (hknown : c.shared.db.KnownStatus) {r : AlertRecord}
    (hr : r ∈ c.shared.db.alerts.rows) : RowStep lbl r (lbl.apply r) := by
  cases hstep with
  | start => exact ⟨rfl, rfl, rfl, .kept, fun _ => rfl⟩
  | finish => exact ⟨rfl, rfl, rfl, .kept, fun _ => rfl⟩
  | call i self job o k hbusy =>
      obtain ⟨hid, howner, hcreated⟩ := apply_fixed o r
      refine ⟨hid, howner, hcreated, ?_, apply_deleted o⟩
      change StatusEdge _ r (o.apply r).status
      rcases apply_eq_or_edit o r with hsame | hedit
      · rw [hsame]
        exact .kept
      · exact statusEdge_of_edit ((run_keeps h).busy i self job _ hbusy).1 hr hknown hedit

/-- Over any stretch of a run, the triggers of an alert use up its armings. -/
theorem triggers_add_armed_le (alertId : ℤ) (h : server.AnyRun c t c') :
    t.countP (fun lbl => lbl.does (Call.triggers alertId)) + c'.shared.db.armed alertId ≤
      c.shared.db.armed alertId + t.countP fun lbl =>
      lbl.does (Call.modifies alertId) := by
  induction h with
  | nil => simp
  | @snoc t c₁ _ _ _ _ hnext _ ih =>
      rw [System.countP_concat, System.countP_concat]
      cases System.step_of_next server hnext with
      | start => exact ih
      | finish => exact ih
      | call i self job o k hbusy =>
          have hcall := armed_exec alertId o c₁.shared
          change _ + (o.triggers alertId (exec o c₁.shared).1).toNat +
            (exec o c₁.shared).2.db.armed alertId ≤
              _ + (_ + (o.modifies alertId (exec o c₁.shared).1).toNat)
          omega

/-- A deleted row stays as it is, and nothing succeeds on it any more. -/
theorem deleted_for_good (h : server.AnyRun c t c') {r : AlertRecord}
    (hr : r ∈ c.shared.db.alerts.rows) (hdeleted : r.status = 2) :
    r ∈ c'.shared.db.alerts.rows ∧ ∀ lbl ∈ t, ¬ lbl.does (Call.triggers r.id) := by
  induction h with
  | nil => exact ⟨hr, by simp⟩
  | snoc _ hnext _ ih =>
      obtain ⟨hmem, hnone⟩ := ih
      have hstep := System.step_of_next server hnext
      constructor
      · cases hstep with
        | start => exact hmem
        | finish => exact hmem
        | call i self job o k hbusy =>
            have hafter := mem_alerts_after o hmem
            rwa [apply_deleted o hdeleted] at hafter
      · intro lbl hlbl
        rcases List.mem_append.mp hlbl with hlbl | hlbl
        · exact hnone lbl hlbl
        · obtain rfl := List.mem_singleton.mp hlbl
          cases hstep with
          | start => exact Bool.false_ne_true
          | finish => exact Bool.false_ne_true
          | call i self job o k hbusy => exact (not_touched_of_deleted hmem hdeleted).1

theorem owner_stays (h : server.AnyRun c t c') {r : AlertRecord}
    (hr : r ∈ c.shared.db.alerts.rows) :
    ∃ r' ∈ c'.shared.db.alerts.rows, r'.id = r.id ∧ r'.userId = r.userId := by
  have hstep : ∀ (o : Call) (w : World),
      (∃ r' ∈ w.db.alerts.rows, r'.id = r.id ∧ r'.userId = r.userId) →
        ∃ r' ∈ (exec o w).2.db.alerts.rows, r'.id = r.id ∧ r'.userId = r.userId := by
    rintro o w ⟨r', hr', hid, howner⟩
    exact ⟨o.apply r', mem_alerts_after o hr', (apply_id o r').trans hid,
      (apply_userId o r').trans howner⟩
  exact h.invariant hstep ⟨r, hr, rfl, rfl⟩

end Runs

/-! ## Notifications -/

section Notifications

variable (alertId : ℤ)

/-- The code pays for each `FireAlert` of the alert with a `TriggerAlert` of it. -/
abbrev Pays {α : Type} (p : Action α) (n : ℕ) : Prop :=
  p.Affords Answer (Call.triggers alertId) (Call.notifies alertId) n

variable {alertId}

/-- The calls that neither trigger nor notify. -/
def Call.free : Call → Prop
  | .triggerAlert _ _ | .fireAlert _ => False
  | _ => True

theorem pays_call {α : Type} {c : Call} {k : c.Ans → Action α} {n : ℕ} (hc : c.free)
    (hk : ∀ r, Pays alertId (k r) n) : Pays alertId (.call c k) n := by
  refine affords_call (fun r h => ?_) (fun r h => ?_) fun r _ => hk r
  · cases c <;> first | exact hc | cases h
  · cases c <;> first | exact hc | cases h

theorem fireAlert_pays (rec : AlertRecord) (p : ℚ) (ts : Text) :
    Pays alertId (fireAlert rec p ts) (decide (rec.id = alertId)).toNat := by
  have hspend {k : Unit → Action Bool} (hk : ∀ n, Pays alertId (k ()) n) :
      Pays alertId (.call (.fireAlert rec) k) (decide (rec.id = alertId)).toNat := by
    intro _ _
    refine ⟨fun h => ?_, hk _⟩
    have hid : decide (rec.id = alertId) = true := h
    rw [hid]
    exact Nat.one_pos
  obtain h | h | ⟨msg, subject, body, -, h⟩ := fireAlert_cases rec p ts
  · rw [h]
    exact hspend fun _ => trivial
  · rw [h]
    exact hspend fun _ => pays_call trivial fun _ => trivial
  · rw [h]
    exact hspend fun _ => pays_call trivial fun _ => pays_call trivial fun _ => trivial

/-- After a `TriggerAlert` of its copy, a check may fire it. -/
theorem trigger_pays {rec : AlertRecord} {ts : Text} {yes no : Action Bool}
    (hyes : Pays alertId yes (decide (rec.id = alertId)).toNat)
    (hno : Pays alertId no 0) :
    Pays alertId (.call (.triggerAlert rec ts) fun ok : Bool => if ok then yes
      else no) 0 := by
  intro ok _
  refine ⟨fun h => absurd h Bool.false_ne_true, ?_⟩
  change Affords _ _ _ (0 + (ok && decide (rec.id = alertId)).toNat - 0)
    (if ok = true then yes else no)
  cases ok with
  | true => simpa using hyes
  | false => simpa using hno

theorem checkPriceLoop_pays (p : ℚ) (todo : List AlertRecord) :
    Pays alertId (checkPriceLoop p todo) 0 := by
  induction todo with
  | nil => trivial
  | cons rec rest ih =>
      unfold checkPriceLoop
      split
      · refine pays_call trivial fun ts => trigger_pays ?_ ih
        refine pays_call trivial fun _ =>
          (fireAlert_pays rec p ts.stamp).bind fun fits => ?_
        split
        · exact ih
        · trivial
      · exact ih

theorem checkTimeLoop_pays (todo : List AlertRecord) :
    Pays alertId (checkTimeLoop todo) 0 := by
  induction todo with
  | nil => trivial
  | cons rec rest ih =>
      refine pays_call trivial fun ts => trigger_pays ?_ ih
      refine pays_call trivial fun lastPrice =>
        (fireAlert_pays rec _ ts.stamp).bind fun fits => ?_
      split
      · exact ih
      · trivial

theorem serverCode_pays (job : Job) (self : Session) :
    Pays alertId (serverCode job self) 0 := by
  have hother : (∀ c r, ServerCall (fun _ _ => True) job self c →
      ¬ c.notifies alertId r) → Pays alertId (serverCode job self) 0 := fun h =>
    (server_contract.code job self).affords h 0
  cases job with
  | tick contract p =>
      refine Affords.bind ?_ fun _ => trivial
      have hcheck : Pays alertId (ask (.copyCached contract) >>= checkPriceLoop p) 0 :=
        pays_call trivial fun pending => checkPriceLoop_pays p pending
      unfold checkPriceAlert
      split
      · exact pays_call trivial fun _ => hcheck
      · exact hcheck
  | timer hms =>
      refine Affords.bind ?_ fun _ => trivial
      exact pays_call trivial fun pending => checkTimeLoop_pays pending
  | _ =>
      refine hother fun c r hc hnotifies => ?_
      cases c <;> first | exact hc | cases hnotifies

end Notifications

/-! ## The whole life -/

section Life

variable {ι : Type*} [DecidableEq ι]

/-- What holds of the alert in the state `c` that the trace `t` led to. -/
structure AlertLife (alertId : ℤ) (c₀ : Threads ι) (t : List (ServerStep ι))
    (c : Threads ι) : Prop where
  /-- Whatever happens next, its row makes its way through the status graph. -/
  step : ∀ a lbl c', server.next c a = some (lbl, c') →
    ∀ r ∈ c.shared.db.alerts.rows, r.id = alertId →
      ∃ r' ∈ c'.shared.db.alerts.rows, RowStep lbl r r'
  /-- `FireAlert` is called at most once for each time the alert was triggered. -/
  notified : t.countP (fun lbl => lbl.does (Call.notifies alertId)) ≤
    t.countP fun lbl => lbl.does (Call.triggers alertId)
  /-- Between two triggers the owner has modified the alert. -/
  rearmed : ∀ (t₁ t₂ t₃ : List (ServerStep ι)) (a b : ServerStep ι),
    t = t₁ ++ a :: t₂ ++ b :: t₃ → a.does (Call.triggers alertId) →
      b.does (Call.triggers alertId) → ∃ m ∈ t₂, m.does (Call.modifies alertId) ∧
        ∃ r ∈ c.shared.db.alerts.rows, r.id = alertId ∧ m.memory.userId = r.userId
  /-- The alert is notified at most once for each time it was armed, by its insertion
  or by a MODIFY. -/
  once : t.countP (fun lbl => lbl.does (Call.notifies alertId)) ≤
    1 + t.countP fun lbl => lbl.does (Call.modifies alertId)
  /-- If it was deleted while pending, then never for the last of them. -/
  unnotified : ∀ (t₁ t₂ : List (ServerStep ι)) (d : ServerStep ι) (c₁ : Threads ι),
    t = t₁ ++ d :: t₂ → server.AnyRun c₀ t₁ c₁ → server.AnyRun c₁ (d :: t₂) c →
      d.does (Call.deletes alertId) →
      (∃ r ∈ c₁.shared.db.alerts.rows, r.id = alertId ∧ r.status = 0) →
        t.countP (fun lbl => lbl.does (Call.notifies alertId)) ≤
          t₁.countP fun lbl => lbl.does (Call.modifies alertId)

variable {w₀ : World} {memory : ι → Session} {t : List (ServerStep ι)} {c c' : Threads ι}
  {lbl : ServerStep ι} {alertId : ℤ}

omit [DecidableEq ι] in
theorem not_modifies_of_triggers (h : lbl.does (Call.triggers alertId)) :
    lbl.does (Call.modifies alertId) = false := by
  obtain ⟨rec, ts, hkind, -⟩ := exists_of_triggers h
  simp only [Label.does, hkind, Call.modifies]

omit [DecidableEq ι] in
theorem not_triggers_of_deletes (h : lbl.does (Call.deletes alertId)) :
    lbl.does (Call.triggers alertId) = false := by
  by_contra htriggers
  obtain ⟨rec, ts, hkind, -⟩ := exists_of_triggers (Bool.not_eq_false _ ▸ htriggers)
  simp only [Label.does, hkind, Call.deletes] at h
  cases h

/-- Who modifies an alert is its owner. -/
theorem owner_of_modifies (h : server.AnyRun (System.idleAt w₀ memory) t c)
    (hstep : server.Step c lbl c') (hmodifies : lbl.does (Call.modifies alertId)) :
    ∃ r ∈ c.shared.db.alerts.rows, r.id = alertId ∧ r.userId = lbl.memory.userId := by
  have hcall := (run_keeps h).busy
  cases hstep with
  | start => cases hmodifies
  | finish => cases hmodifies
  | call i self job o k hbusy =>
      have hc := (hcall i self job _ hbusy).1
      cases o with
      | modifyPriceAlert id uid c p cond =>
          obtain ⟨hok, hid⟩ := Bool.and_eq_true_iff.mp hmodifies
          obtain ⟨r, hr, hrid, howner, -⟩ := modifyPriceAlert_true.mp hok
          exact ⟨r, hr, hrid.trans (of_decide_eq_true hid),
            howner.trans (owner_of_serverCall hc rfl).symm⟩
      | modifyTimeAlert id uid c s =>
          obtain ⟨hok, hid⟩ := Bool.and_eq_true_iff.mp hmodifies
          obtain ⟨r, hr, hrid, howner, -⟩ := modifyTimeAlert_true.mp hok
          exact ⟨r, hr, hrid.trans (of_decide_eq_true hid),
            howner.trans (owner_of_serverCall hc rfl).symm⟩
      | _ => cases hmodifies

theorem modified_by_owner (h : server.AnyRun (System.idleAt w₀ memory) t c)
    {m : ServerStep ι} (hm : m ∈ t) (hmodifies : m.does (Call.modifies alertId)) :
    ∃ r ∈ c.shared.db.alerts.rows, r.id = alertId ∧ m.memory.userId = r.userId := by
  induction h with
  | nil => cases hm
  | snoc hrun hnext _ ih =>
      have hlast : server.AnyRun _ [_] _ := .snoc .nil hnext trivial
      rcases List.mem_append.mp hm with hm | hm
      · obtain ⟨r, hr, hid, howner⟩ := ih hm
        obtain ⟨r', hr', hid', howner'⟩ := owner_stays hlast hr
        exact ⟨r', hr', hid'.trans hid, howner.trans howner'.symm⟩
      · obtain rfl := List.mem_singleton.mp hm
        obtain ⟨r, hr, hid, howner⟩ :=
          owner_of_modifies hrun (System.step_of_next server hnext) hmodifies
        obtain ⟨r', hr', hid', howner'⟩ := owner_stays hlast hr
        exact ⟨r', hr', hid'.trans hid, (howner'.trans howner).symm⟩

theorem notifies_le_triggers (alertId : ℤ)
    (h : server.AnyRun (System.idleAt w₀ memory) t c) :
    t.countP (fun lbl => lbl.does (Call.notifies alertId)) ≤
      t.countP fun lbl => lbl.does (Call.triggers alertId) :=
  System.Run.spent_le_earned serverCode_pays answer_exec h

/-- Between two triggers the alert has been modified. -/
theorem modifies_between {t₂ t₃ : List (ServerStep ι)} {a b : ServerStep ι}
    (h : server.AnyRun c (a :: t₂ ++ b :: t₃) c') (ha : a.does (Call.triggers alertId))
    (hb : b.does (Call.triggers alertId)) : ∃ m ∈ t₂, m.does (Call.modifies alertId) := by
  have hsplit : t₂ ++ b :: t₃ = (t₂ ++ [b]) ++ t₃ := by simp
  obtain ⟨c₁, h₁, h₂⟩ := h.split (show _ = [a] ++ (t₂ ++ b :: t₃) from rfl)
  obtain ⟨c₂, h₃, -⟩ := h₂.split hsplit
  have hfirst := triggers_add_armed_le alertId h₁
  have hbetween := triggers_add_armed_le alertId h₃
  have hone := c.shared.db.armed_le_one alertId
  rw [List.countP_singleton, List.countP_singleton,
    not_modifies_of_triggers ha, ha] at hfirst
  rw [System.countP_concat, System.countP_concat,
    not_modifies_of_triggers hb, hb] at hbetween
  simp only [↓reduceIte, Bool.false_eq_true, Bool.toNat_true,
    Bool.toNat_false] at hfirst hbetween
  have hpos : 0 < t₂.countP fun lbl => lbl.does (Call.modifies alertId) := by omega
  exact List.countP_pos_iff.mp hpos

theorem deleted_of_deletes (hstep : server.Step c lbl c')
    (hdeletes : lbl.does (Call.deletes alertId)) :
    ∃ r ∈ c'.shared.db.alerts.rows, r.id = alertId ∧ r.status = 2 := by
  cases hstep with
  | start => cases hdeletes
  | finish => cases hdeletes
  | call i self job o k hbusy =>
      cases o with
      | deleteAlert id uid =>
          obtain ⟨hok, hid⟩ := Bool.and_eq_true_iff.mp hdeletes
          obtain ⟨r, hr, hrid, howner, hlive⟩ := deleteAlert_true.mp hok
          have hguard : (Call.deleteAlert id uid).guard r :=
            AlertDB.ownGuard_iff.mpr ⟨hrid, howner, hlive⟩
          have hafter := mem_alerts_after (.deleteAlert id uid) hr
          rw [Call.apply, if_pos hguard] at hafter
          exact ⟨_, hafter, hrid.trans (of_decide_eq_true hid), rfl⟩
      | _ => cases hdeletes

/-- In every run of any number of threads, from any cache on. -/
theorem alertLife_of_run (hknown : w₀.db.KnownStatus)
    (h : server.AnyRun (System.idleAt w₀ memory) t c) (alertId : ℤ) :
    AlertLife alertId (System.idleAt w₀ memory) t c where
  step a lbl c' hnext r hr _ := by
    have hstep := System.step_of_next server hnext
    have hcall : ∀ (o : Call) (w : World), w.db.KnownStatus →
        (exec o w).2.db.KnownStatus :=
      fun o w hw => hw.exec o
    have hknown' : c.shared.db.KnownStatus := h.invariant hcall hknown
    exact ⟨_, mem_alerts_after_step hstep hr, rowStep_of_step h hstep hknown' hr⟩
  notified := notifies_le_triggers alertId h
  rearmed t₁ t₂ t₃ a b ht ha hb := by
    rw [List.append_assoc] at ht
    obtain ⟨c₁, -, h₁⟩ := h.split ht
    obtain ⟨m, hm, hmodifies⟩ := modifies_between h₁ ha hb
    have hmem : m ∈ t := by simp [ht, hm]
    exact ⟨m, hm, hmodifies, modified_by_owner h hmem hmodifies⟩
  once := by
    have hpaid := notifies_le_triggers alertId h
    have harmed := triggers_add_armed_le alertId h
    have hone := (System.idleAt w₀ memory : Threads ι).shared.db.armed_le_one alertId
    omega
  unnotified t₁ t₂ d c₁ ht h₁ h₂ hdeletes hpending := by
    obtain ⟨r, hr, rfl, hstatus⟩ := hpending
    obtain ⟨c₂, hstep, h₃⟩ := h₂.head
    obtain ⟨r', hr', hid, hdeleted⟩ := deleted_of_deletes hstep hdeletes
    have hnone := (deleted_for_good h₃ hr' hdeleted).2
    rw [hid] at hnone
    have hafter : t₂.countP (fun lbl => lbl.does (Call.triggers r.id)) = 0 :=
      List.countP_eq_zero.mpr hnone
    have hpaid := notifies_le_triggers r.id h
    have harmed := triggers_add_armed_le r.id h₁
    have hone := (System.idleAt w₀ memory : Threads ι).shared.db.armed_le_one r.id
    rw [AlertDB.armed_of_pending hr hstatus] at harmed
    have htotal : t.countP (fun lbl => lbl.does (Call.triggers r.id)) =
        t₁.countP fun lbl => lbl.does (Call.triggers r.id) := by
      rw [ht, List.countP_append, List.countP_cons, hafter,
        not_triggers_of_deletes hdeletes]
      rfl
    calc t.countP (fun lbl => lbl.does (Call.notifies r.id))
        ≤ t.countP fun lbl => lbl.does (Call.triggers r.id) := hpaid
      _ = t₁.countP fun lbl => lbl.does (Call.triggers r.id) := htotal
      _ ≤ t₁.countP fun lbl => lbl.does (Call.modifies r.id) := by omega

end Life

/-! ## Two runs -/

/-- A tick of 3600 triggers ann's alert and notifies her. -/
def tickNotifies : List (Choice (Fin 2) Job) :=
  annAddsAlert ++
  Choice.start 1 (Job.tick (cstr (ascii "rb2510")) 3600) :: List.replicate
    8 (Choice.step 1)

set_option maxRecDepth 10000 in
theorem alertLife_of_notified :
    ∃ t c, AlertLife 1 (System.idleAt newWorld fun _ : Fin 2 => .new 0) t c ∧
      t.countP (fun lbl => lbl.does (Call.notifies 1)) = 1 := by
  have hstate : (server.follow (System.idleAt newWorld fun _ => .new 0) tickNotifies).map
      (fun out => out.1.countP fun lbl => lbl.does (Call.notifies 1)) = some 1 := by
    decide +kernel
  obtain ⟨⟨t, c⟩, hfollow, hcount⟩ := Option.map_eq_some_iff.mp hstate
  have hknown : newWorld.db.KnownStatus := by
    intro r hr
    cases hr
  exact ⟨t, c, alertLife_of_run hknown (System.run_of_follow hfollow) 1, hcount⟩

/-- A tick of 3600 triggers ann's alert. Before it notifies her, she changes the alert to
`rb2510 >= 4000` and starts to delete it. -/
def deleteDuringTick : List (Choice (Fin 2) Job) :=
  annAddsAlert ++
  Choice.start 1 (Job.tick (cstr (ascii "rb2510")) 3600) :: List.replicate 4
    (Choice.step 1) ++
  Choice.start 0 (Job.line (ascii "MODIFY_PRICE 1 rb2510 4000 0")) ::
    List.replicate 6 (Choice.step 0) ++
  [Choice.start 0 (Job.line (ascii "DELETE 1"))]

set_option maxRecDepth 10000 in
/-- The alert is deleted while pending, and then its notification comes. -/
theorem notified_after_deletion :
    ∃ (t₁ t₂ : List (ServerStep (Fin 2))) (d : ServerStep (Fin 2))
      (c₁ c : Threads (Fin 2)),
      server.AnyRun (System.idleAt newWorld fun _ => .new 0) t₁ c₁ ∧
      server.AnyRun c₁ (d :: t₂) c ∧ d.does (Call.deletes 1) ∧
      (∃ r ∈ c₁.shared.db.alerts.rows, r.id = 1 ∧ r.status = 0) ∧
      ∃ lbl ∈ t₂, lbl.does (Call.notifies 1) := by
  have hstate : (server.follow (System.idleAt newWorld fun _ => .new 0)
      deleteDuringTick).bind (fun out =>
        (server.follow out.2 [.step 0, .step 1, .step 1]).map fun out' =>
          (out.2.shared.db.alerts.rows.any (fun r => r.id = 1 ∧ r.status = 0),
            out'.1.map (fun lbl => lbl.does (Call.deletes 1)),
            out'.1.map fun lbl => lbl.does (Call.notifies 1))) =
      some (true, [true, false, false], [false, false, true]) := by decide +kernel
  obtain ⟨⟨t₁, c₁⟩, h₁, hrest⟩ := Option.bind_eq_some_iff.mp hstate
  obtain ⟨⟨t, c⟩, h₂, hdoes⟩ := Option.map_eq_some_iff.mp hrest
  simp only [Prod.mk.injEq] at hdoes
  obtain ⟨hpending, hdeletes, hnotifies⟩ := hdoes
  obtain ⟨d, t₂, rfl, hd, -⟩ := List.map_eq_cons_iff.mp hdeletes
  rw [List.map_cons] at hnotifies
  have hmem : true ∈ t₂.map fun lbl => lbl.does (Call.notifies 1) := by
    rw [(List.cons.inj hnotifies).2]
    simp
  obtain ⟨lbl, hlbl, hlate⟩ := List.mem_map.mp hmem
  obtain ⟨r, hr, hrow⟩ := List.any_eq_true.mp hpending
  exact ⟨t₁, t₂, d, c₁, c, System.run_of_follow h₁, System.run_of_follow h₂, hd,
    ⟨r, hr, of_decide_eq_true hrow⟩, lbl, hlbl, hlate⟩

end CloudAlert
