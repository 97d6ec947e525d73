import CloudAlert.Engine.Checks
import CloudAlert.Server.History

/-!
# Ticks whose price is not accepted

`CheckPriceAlert` stores a price only when `accepted` holds of it, but runs the
alert loop on every price. `TickLaw` says that a price which is not stored fires
nothing, and `tickLaw_iff` says when that is so: a rejected price fires exactly
the cached alerts whose comparison it satisfies and whose row is pending.
-/

namespace CloudAlert

open Program

/-- The world after a tick. -/
def World.afterTick (w : World) (contract : Text) (lastPrice : ℚ) : World :=
  (run exec (checkPriceAlert contract lastPrice) w).2

/-- Some alert has another status than before. -/
def StatusMoved (w w' : World) : Prop :=
  ∃ r ∈ w.db.alerts.rows, ∃ r' ∈ w'.db.alerts.rows, r'.id = r.id ∧ r'.status ≠ r.status

/-- A price that is not accepted moves and notifies nothing, and a tick that
fires an alert fires it with the price `GetLastPrice` returns afterwards. -/
structure TickLaw (w : World) (contract : Text) (lastPrice : ℚ) : Prop where
  rejected : ¬ accepted lastPrice → ¬ StatusMoved w (w.afterTick contract lastPrice) ∧
    (w.afterTick contract lastPrice).tasks = w.tasks
  fired : StatusMoved w (w.afterTick contract lastPrice) →
    (w.afterTick contract lastPrice).lastPrices contract = some lastPrice

theorem not_statusMoved {w w' : World} (h : w'.db = w.db) : ¬ StatusMoved w w' := by
  rintro ⟨r, hr, r', hr', hid, hne⟩
  rw [h] at hr'
  exact hne (congrArg AlertRecord.status (w.db.alerts.eq_of_key hr' hr hid))

/-- The loop changes nothing when no copy that fires has a pending row. -/
theorem checkPriceLoop_idle {p : ℚ} {todo : List AlertRecord} {w : World}
    (h : ∀ rec ∈ todo, fires rec p → w.db.NotPending rec.id) :
    (run exec (checkPriceLoop p todo) w).2.db = w.db ∧
      (run exec (checkPriceLoop p todo) w).2.tasks = w.tasks := by
  induction todo generalizing w with
  | nil => exact ⟨rfl, rfl⟩
  | cons rec rest ih =>
      have hrest := fun r hr => h r (List.mem_cons_of_mem rec hr)
      by_cases hfires : fires rec p
      · have hidle : w.tickClock.db.NotPending rec.id := h rec List.mem_cons_self hfires
        rw [run_checkPriceLoop_cons hfires]
        simp only [triggerAlert_idle hidle, Bool.false_eq_true, ↓reduceIte]
        exact ih hrest
      · rw [checkPriceLoop_skip hfires]
        exact ih hrest

/-- A row that is not pending stays as it is to the end of the loop. -/
theorem checkPriceLoop_keeps_row {p : ℚ} {todo : List AlertRecord} {w : World}
    {r : AlertRecord} (h : r ∈ w.db.alerts.rows) (hr : r.status ≠ 0) :
    r ∈ (run exec (checkPriceLoop p todo) w).2.db.alerts.rows := by
  have hloop : (checkPriceLoop p todo).Respects (PriceLoopCall (fun _ => True) p)
      (fun _ _ => True) fun _ => True := checkPriceLoop_respects fun _ _ => trivial
  refine (hloop.run (fun w : World => r ∈ w.db.alerts.rows) ?_ h).1
  intro c w' hc hmem
  refine ⟨?_, trivial⟩
  have hafter := mem_alerts_after c hmem
  rwa [apply_eq_self_of_status (.inl hc) hr] at hafter

/-- The loop moves an alert as soon as one copy that fires has a pending row. -/
theorem checkPriceLoop_moves {p : ℚ} {todo : List AlertRecord} {w : World}
    {rec : AlertRecord} (hrec : rec ∈ todo) (hfires : fires rec p)
    (hpending : ¬ w.db.NotPending rec.id) :
    ∃ r ∈ w.db.alerts.rows, ∃ r' ∈ (run exec (checkPriceLoop p todo) w).2.db.alerts.rows,
      r'.id = r.id ∧ r.status = 0 ∧ r'.status = 1 := by
  induction todo generalizing w with
  | nil => cases hrec
  | cons head rest ih =>
      by_cases hidle : fires head p → w.db.NotPending head.id
      · -- the head changes nothing, so the copy is one of the rest
        have hmem : rec ∈ rest := by
          rcases List.mem_cons.mp hrec with rfl | hmem
          · exact absurd (hidle hfires) hpending
          · exact hmem
        by_cases hhead : fires head p
        · have hidle' : w.tickClock.db.NotPending head.id := hidle hhead
          rw [run_checkPriceLoop_cons hhead]
          simp only [triggerAlert_idle hidle', Bool.false_eq_true, ↓reduceIte]
          exact ih (w := w.tickClock) hmem hpending
        · rw [checkPriceLoop_skip hhead]
          exact ih hmem hpending
      · -- the head moves its own row, and the rest leaves that row alone
        simp only [AlertDB.NotPending, Classical.not_imp, not_forall, not_not] at hidle
        obtain ⟨hhead, r, hr, hid, hstatus⟩ := hidle
        obtain ⟨htrue, hmoved⟩ := triggerAlert_pending (w := w.tickClock) hr hid
          hstatus (w.clock 0).stamp
        rw [run_checkPriceLoop_cons hhead]
        simp only [htrue, ↓reduceIte]
        refine ⟨r, hr, { r with status := 1, triggeredAt := (w.clock 0).stamp }, ?_,
          rfl, hstatus, rfl⟩
        split
        · refine checkPriceLoop_keeps_row ?_ one_ne_zero
          rw [fireAlert_db]
          exact hmoved
        · rw [fireAlert_db]
          exact hmoved

theorem checkPriceLoop_lastPrices (p : ℚ) (todo : List AlertRecord) (w : World) :
    (run exec (checkPriceLoop p todo) w).2.lastPrices = w.lastPrices := by
  have hloop : (checkPriceLoop p todo).Respects (PriceLoopCall (fun _ => True) p)
      (fun _ _ => True) fun _ => True := checkPriceLoop_respects fun _ _ => trivial
  refine (hloop.run (fun w' : World => w'.lastPrices = w.lastPrices) ?_ rfl).1
  intro c w' hc hw'
  refine ⟨?_, trivial⟩
  cases c <;> first | exact hw' | exact hc.elim

theorem tickLaw_of_accepted {p : ℚ} (h : accepted p) (w : World) (contract : Text) :
    TickLaw w contract p where
  rejected hnot := absurd h hnot
  fired _ := by
    rw [World.afterTick, run_checkPriceAlert, checkPriceLoop_lastPrices, World.priced,
      if_pos h]
    exact Function.update_self ..

theorem tickLaw_of_idle {p : ℚ} {w : World} {contract : Text}
    (h : ∀ rec ∈ w.priceAlertCache.at contract, fires rec p → w.db.NotPending rec.id) :
    TickLaw w contract p := by
  have hidle := checkPriceLoop_idle (w := w.priced contract p) (by simpa using h)
  rw [← run_checkPriceAlert, World.priced_db, World.priced_tasks] at hidle
  obtain ⟨hdb, htasks⟩ := hidle
  exact ⟨fun _ => ⟨not_statusMoved hdb, htasks⟩, fun h => absurd h (not_statusMoved hdb)⟩

theorem not_tickLaw {p : ℚ} {w : World} {contract : Text} (hp : ¬ accepted p)
    {rec : AlertRecord} (hrec : rec ∈ w.priceAlertCache.at contract)
    (hfires : fires rec p) (hpending : ¬ w.db.NotPending rec.id) :
    ¬ TickLaw w contract p := by
  intro hlaw
  have hmoves := checkPriceLoop_moves (w := w.priced contract p) hrec hfires
    (by simpa using hpending)
  rw [← run_checkPriceAlert, World.priced_db] at hmoves
  obtain ⟨r, hr, r', hr', hid, h0, h1⟩ := hmoves
  exact (hlaw.rejected hp).1 ⟨r, hr, r', hr', hid, by omega⟩

/-- The law holds of a tick exactly when its price is accepted or satisfies no
cached alert whose row is pending. -/
theorem tickLaw_iff (w : World) (contract : Text) (lastPrice : ℚ) :
    TickLaw w contract lastPrice ↔ accepted lastPrice ∨
      ∀ rec ∈ w.priceAlertCache.at contract, fires rec lastPrice →
        w.db.NotPending rec.id := by
  constructor
  · intro hlaw
    by_cases hp : accepted lastPrice
    · exact .inl hp
    · refine .inr fun rec hrec hfires => ?_
      by_contra hpending
      exact not_tickLaw hp hrec hfires hpending hlaw
  · rintro (hp | hidle)
    · exact tickLaw_of_accepted hp w contract
    · exact tickLaw_of_idle hidle

/-- A user adds an alert `rb2510 <= 3500`, before the first trade of the day. -/
def alertBeforeOpening : List Event :=
  [.startUp true, .connect 7, .line 7 (ascii "REGISTER ann pw a@b"),
    .line 7 (ascii "LOGIN ann pw"), .line 7 (ascii "ADD_PRICE ann rb2510 3500 1")]

set_option maxRecDepth 10000 in
/-- The tick without a trade, whose price is 0, fires that alert. -/
theorem tick_without_trade_fires :
    ∃ s, serveAll exec (.off .created fun _ => ⟨2025, 6, 0, 8, 55, 0⟩)
        alertBeforeOpening = some s ∧
      ¬ TickLaw s.world (cstr (ascii "rb2510")) 0 := by
  let rec₀ : AlertRecord :=
    { id := 1, userId := 1, alertType := 0, condition := 1, status := 0,
      contract := cstr (ascii "rb2510"), triggerTime := Text.empty,
      createdAt := cstr (ascii "2025-07-01 08:55:00"), triggeredAt := Text.empty,
      triggerPrice := 3500 }
  have hstate : (serveAll exec (.off .created fun _ => ⟨2025, 6, 0, 8, 55, 0⟩)
      alertBeforeOpening).map (fun s =>
      (s.world.priceAlertCache.at (cstr (ascii "rb2510")),
        s.world.db.alerts.rows)) = some ([rec₀], [rec₀]) := by decide +kernel
  obtain ⟨s, hs, hrows⟩ := Option.map_eq_some_iff.mp hstate
  obtain ⟨hcache, htable⟩ := Prod.mk.inj hrows
  have hpending : ¬ s.world.db.NotPending rec₀.id := fun h =>
    h rec₀ (htable ▸ List.mem_singleton_self rec₀) rfl rfl
  exact ⟨s, hs, not_tickLaw (by decide +kernel)
    (hcache ▸ List.mem_singleton_self rec₀) (by decide +kernel) hpending⟩

end CloudAlert
