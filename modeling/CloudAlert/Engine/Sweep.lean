import CloudAlert.Engine.Coherence
import CloudAlert.Server.Accounts

/-!
# What a check does when it runs alone

`SweptWith` is the effect a check should have: the alerts in `due` move to
triggered and are handed to the notifier once each and in this order, every
notification is built from the row as it was, and nothing else in the tables or
the queue changes. `checkPriceLoop_sweeps` and `checkTimeLoop_sweeps` show that
the loops do that when their copies are pending rows of the table.
-/

namespace CloudAlert

open Program

/-- The row after its alert was triggered. -/
def AlertRecord.triggered (r : AlertRecord) (ts : Text) : AlertRecord :=
  { r with status := 1, triggeredAt := ts }

/-- The alerts in `due` were triggered at the times `stamp` and handed to the
notifier as `notes`, with `price` as the last price. -/
structure SweptWith (due : List AlertRecord) (price : AlertRecord → ℚ)
    (stamp : AlertRecord → Text) (notes : List NotifyTask) (w w' : World) : Prop where
  users : w'.db.users = w.db.users
  rows : w'.db.alerts.rows =
    w.db.alerts.rows.map fun r => if r ∈ due then r.triggered (stamp r) else r
  tasks : w'.tasks = w.tasks ++ notes
  built : due.map (fun r => notice w.db r (price r) (stamp r)) = notes.map some

/-- The same, at some times and with some notifications. -/
def Swept (due : List AlertRecord) (price : AlertRecord → ℚ) (w w' : World) : Prop :=
  ∃ stamp notes, SweptWith due price stamp notes w w'

theorem Swept.nil {price : AlertRecord → ℚ} {w w' : World} (hdb : w'.db = w.db)
    (htasks : w'.tasks = w.tasks) : Swept [] price w w' := by
  refine ⟨fun _ => Text.empty, [], ?_, ?_, ?_, rfl⟩
  · rw [hdb]
  · simp [hdb]
  · rw [htasks, List.append_nil]

theorem notice_congr {db db' : AlertDB} (h : db'.users = db.users) (r : AlertRecord)
    (p : ℚ) (ts : Text) : notice db' r p ts = notice db r p ts := by
  unfold notice AlertDB.getEmail
  rw [h]

/-- The row `rec` was triggered, and no other row has changed. -/
structure RowTriggered (rec : AlertRecord) (ts : Text) (w w₁ : World) : Prop where
  users : w₁.db.users = w.db.users
  rows : w₁.db.alerts.rows =
    w.db.alerts.rows.map fun r => if r = rec then r.triggered ts else r
  tasks : w₁.tasks = w.tasks
  lastPrices : w₁.lastPrices = w.lastPrices

theorem Swept.cons {rec : AlertRecord} {rest : List AlertRecord} {price : AlertRecord → ℚ}
    {w w₁ w' : World} {ts : Text} {task : NotifyTask} (hrec : rec ∉ rest)
    (hrest : ∀ r ∈ rest, r.status = 0) (hone : RowTriggered rec ts w w₁)
    (htask : notice w₁.db rec (price rec) ts = some task)
    (h : Swept rest price (w₁.notified task) w') :
    Swept (rec :: rest) price w w' := by
  obtain ⟨stamp, notes, h⟩ := h
  have hstamp : ∀ r ∈ rest, Function.update stamp rec ts r = stamp r := by
    intro r hr
    have hne : r ≠ rec := fun heq => hrec (heq ▸ hr)
    simp [hne]
  refine ⟨Function.update stamp rec ts, task :: notes, ?_, ?_, ?_, ?_⟩
  · exact h.users.trans hone.users
  · refine (h.rows.trans (congrArg _ hone.rows)).trans ?_
    rw [List.map_map]
    apply List.map_congr_left
    intro r _
    simp only [Function.comp_apply, List.mem_cons]
    by_cases hr : r = rec
    · subst hr
      -- the triggered row is not one of the pending rows that follow
      have hout : r.triggered ts ∉ rest := fun hmem =>
        absurd (hrest _ hmem) one_ne_zero
      simp [hout]
    · by_cases hmem : r ∈ rest
      · simp [hr, hmem]
      · simp [hr, hmem]
  · rw [h.tasks, World.notified, hone.tasks, List.append_assoc, List.singleton_append]
  · rw [List.map_cons, List.map_cons, Function.update_self, ← notice_congr hone.users,
      htask, ← h.built]
    congr 1
    apply List.map_congr_left
    intro r hr
    rw [hstamp r hr]
    exact (notice_congr hone.users r _ _).symm

/-! ## One alert -/

/-- `TriggerAlert` of a pending row, which is the only one under its id. -/
theorem rowTriggered_triggerAlert {rec : AlertRecord} {w : World}
    (hrec : rec ∈ w.db.alerts.rows) (hpending : rec.status = 0) (ts : Text) :
    RowTriggered rec ts w (exec (.triggerAlert rec ts) w.tickClock).2 where
  users := exec_users_of_not_writes (c := .triggerAlert rec ts) id w.tickClock
  rows := by
    rw [exec_alerts_rows]
    refine (List.append_nil _).trans (List.map_congr_left fun r hr => ?_)
    by_cases heq : r = rec
    · subst heq
      rw [if_pos rfl]
      exact if_pos (decide_eq_true ⟨rfl, hpending⟩)
    · rw [if_neg heq]
      refine if_neg fun hg => heq ?_
      exact w.db.alerts.eq_of_key hr hrec (of_decide_eq_true hg).1
  tasks := rfl
  lastPrices := rfl

theorem RowTriggered.remove {rec : AlertRecord} {ts : Text} {w w₁ : World}
    (h : RowTriggered rec ts w w₁) (alertId : ℤ) :
    RowTriggered rec ts w (exec (.removeCached alertId) w₁).2 :=
  ⟨h.users, h.rows, h.tasks, h.lastPrices⟩

/-- The rows of `rest` are still there after `rec` was triggered. -/
theorem RowTriggered.others {rec : AlertRecord} {rest : List AlertRecord} {w w₁ : World}
    {ts : Text} (h : RowTriggered rec ts w w₁) (hrec : rec ∉ rest)
    (hrest : ∀ r ∈ rest, r ∈ w.db.alerts.rows ∧ r.status = 0) :
    ∀ r ∈ rest, r ∈ w₁.db.alerts.rows ∧ r.status = 0 := by
  intro r hr
  have hne : r ≠ rec := fun heq => hrec (heq ▸ hr)
  refine ⟨?_, (hrest r hr).2⟩
  rw [h.rows, List.mem_map]
  exact ⟨r, (hrest r hr).1, if_neg hne⟩

/-- A pending price alert that is triggered and then removed from the cache
leaves it coherent. -/
theorem Coherent.trigger_remove {w : World} (h : Coherent w) (rec : AlertRecord)
    (ts : Text) :
    Coherent (exec (.removeCached rec.id) (exec (.triggerAlert rec ts) w).2).2 := by
  intro c
  change (w.priceAlertCache.remove rec.id).at c =
    (w.db.updateAlerts .none _ _ _).2.getPendingPriceAlerts .none c
  rw [PriceAlertCache.at_remove, h c, AlertDB.updateAlerts_none,
    AlertDB.getPendingPriceAlerts_none, AlertDB.getPendingPriceAlerts_none,
    Table.select_update_of_leaves]
  · apply List.filter_congr
    intro r hr
    have hpending : r.status = 0 := by
      obtain ⟨-, hq⟩ := (Table.mem_select _).mp hr
      exact (of_decide_eq_true (of_decide_eq_true hq).1).1
    simp [hpending]
  · intro r _ hq
    exact absurd (of_decide_eq_true (of_decide_eq_true hq).1).1 one_ne_zero

theorem Coherent.notified {w : World} (h : Coherent w) (task : NotifyTask) :
    Coherent (w.notified task) := h.congr rfl rfl

theorem Coherent.trigger_time {w : World} (h : Coherent w) {rec : AlertRecord}
    (hrec : rec ∈ w.db.alerts.rows) (htime : AlertDB.pendingTime rec) (ts : Text) :
    Coherent (exec (.triggerAlert rec ts) w).2 := by
  have htype : rec.alertType = 1 := (of_decide_eq_true htime).2
  change Coherent (w.store (w.db.updateAlerts .none _ _ _)).2
  rw [AlertDB.updateAlerts_none]
  refine h.update fun r hr hg => ⟨fun hp => ?_, fun hp => ?_⟩
  · obtain rfl := w.db.alerts.eq_of_key hr hrec (of_decide_eq_true hg).1
    have hprice := (of_decide_eq_true hp).2
    omega
  · exact absurd (of_decide_eq_true hp).1 one_ne_zero

/-! ## The loops -/

theorem notice_of_completed {rec : AlertRecord} {p : ℚ} {ts : Text} {w w' : World}
    {next : Action Bool}
    (h : (if (run exec (fireAlert rec p ts) w).1 = true then
        run exec next (run exec (fireAlert rec p ts) w).2
      else (false, (run exec (fireAlert rec p ts) w).2)) = (true, w')) :
    ∃ task, notice w.db rec p ts = some task ∧
      run exec next (w.notified task) = (true, w') := by
  rw [run_fireAlert] at h
  cases htask : notice w.db rec p ts with
  | none => simp [htask] at h
  | some task => exact ⟨task, rfl, by simpa [htask] using h⟩

/-- A price check over pending rows fires those that the price satisfies. -/
theorem checkPriceLoop_sweeps {p : ℚ} {todo : List AlertRecord} {w w' : World}
    (hw : Coherent w) (htodo : ∀ r ∈ todo, r ∈ w.db.alerts.rows ∧ r.status = 0)
    (hnodup : todo.Nodup) (h : run exec (checkPriceLoop p todo) w = (true, w')) :
    Coherent w' ∧ Swept (todo.filter fun r => fires r p) (fun _ => p) w w' := by
  induction todo generalizing w with
  | nil =>
      obtain rfl : w = w' := (Prod.mk.inj h).2
      exact ⟨hw, .nil rfl rfl⟩
  | cons rec rest ih =>
      obtain ⟨hrec, hrest⟩ := List.nodup_cons.mp hnodup
      have htail := fun r hr => htodo r (List.mem_cons_of_mem rec hr)
      by_cases hfires : fires rec p
      · obtain ⟨hmem, hpending⟩ := htodo rec List.mem_cons_self
        rw [run_checkPriceLoop_cons hfires] at h
        dsimp only at h
        generalize (w.clock 0).stamp = ts at h
        have htrue : (exec (.triggerAlert rec ts) w.tickClock).1 = true :=
          triggerAlert_true.mpr ⟨rec, hmem, rfl, hpending⟩
        have hone : RowTriggered rec ts w _ :=
          (rowTriggered_triggerAlert hmem hpending ts).remove rec.id
        have hcoherent : Coherent (exec (.removeCached rec.id)
            (exec (.triggerAlert rec ts) w.tickClock).2).2 :=
          Coherent.trigger_remove (w := w.tickClock) (hw.congr rfl rfl) rec ts
        rw [if_pos htrue] at h
        obtain ⟨task, htask, h⟩ := notice_of_completed h
        obtain ⟨hdone, hswept⟩ :=
          ih (hcoherent.notified task) (hone.others hrec htail) hrest h
        rw [List.filter_cons_of_pos (p := fun r => fires r p) hfires]
        refine ⟨hdone, .cons ?_ ?_ hone htask hswept⟩
        · exact fun hin => hrec (List.mem_of_mem_filter hin)
        · exact fun r hr => (htail r (List.mem_of_mem_filter hr)).2
      · rw [checkPriceLoop_skip hfires] at h
        rw [List.filter_cons_of_neg (p := fun r => fires r p) hfires]
        exact ih hw htail hrest h

/-- A time check over pending time alerts fires all of them. -/
theorem checkTimeLoop_sweeps {todo : List AlertRecord} {w w' : World}
    (htodo : ∀ r ∈ todo, r ∈ w.db.alerts.rows ∧ r.status = 0)
    (htime : ∀ r ∈ todo, AlertDB.pendingTime r) (hnodup : todo.Nodup)
    (h : run exec (checkTimeLoop todo) w = (true, w')) :
    (Coherent w → Coherent w') ∧
      Swept todo (fun r => (w.lastPrices r.contract.val).getD 0) w w' := by
  induction todo generalizing w with
  | nil =>
      obtain rfl : w = w' := (Prod.mk.inj h).2
      exact ⟨id, .nil rfl rfl⟩
  | cons rec rest ih =>
      obtain ⟨hrec, hrest⟩ := List.nodup_cons.mp hnodup
      have htail := fun r hr => htodo r (List.mem_cons_of_mem rec hr)
      obtain ⟨hmem, hpending⟩ := htodo rec List.mem_cons_self
      rw [run_checkTimeLoop_cons] at h
      dsimp only at h
      generalize (w.clock 0).stamp = ts at h
      have htrue : (exec (.triggerAlert rec ts) w.tickClock).1 = true :=
        triggerAlert_true.mpr ⟨rec, hmem, rfl, hpending⟩
      have hone : RowTriggered rec ts w _ := rowTriggered_triggerAlert hmem hpending ts
      have hcoherent :
          Coherent w → Coherent (exec (.triggerAlert rec ts) w.tickClock).2 :=
        fun hw => Coherent.trigger_time (w := w.tickClock) (hw.congr rfl rfl) hmem
          (htime rec List.mem_cons_self) ts
      rw [if_pos htrue, hone.lastPrices] at h
      obtain ⟨task, htask, h⟩ := notice_of_completed h
      obtain ⟨hdone, hswept⟩ := ih
        (w := (exec (.triggerAlert rec ts) w.tickClock).2.notified task)
        (hone.others hrec htail) (fun r hr => htime r (List.mem_cons_of_mem rec hr)) hrest
        h
      have hprices :
          ((exec (.triggerAlert rec ts) w.tickClock).2.notified task).lastPrices =
          w.lastPrices := hone.lastPrices
      rw [hprices] at hswept
      exact ⟨fun hw => hdone ((hcoherent hw).notified task),
        .cons hrec (fun r hr => (htail r hr).2) hone htask hswept⟩

end CloudAlert
