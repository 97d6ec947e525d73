import CloudAlert.Engine.Checks

/-!
# Coherence of cache and table

`Coherent` says that the cache holds, contract by contract, the pending price
alerts of the table. A refresh makes it so from any state (`run_refresh`). Each
command keeps it: a command that can change a pending price alert refreshes the
cache afterwards, and the other commands, ADD_TIME among them, do not touch the
rows the cache holds.
-/

namespace CloudAlert

open Program

/-! ## The cache a refresh builds -/

theorem AlertDB.getPendingPriceAlerts_none (db : AlertDB) (c : Text) :
    db.getPendingPriceAlerts .none c =
      db.alerts.select fun r => pendingPrice r ∧ r.contract = c :=
  Faults.none_query _

/-- The cache that holds the pending price alerts of the table, without empty
entries. -/
def AlertDB.freshCache (db : AlertDB) : PriceAlertCache := fun c =>
  if db.getPendingPriceAlerts .none c = [] then none
  else some (db.getPendingPriceAlerts .none c)

theorem AlertDB.freshCache_at (db : AlertDB) (c : Text) :
    db.freshCache.at c = db.getPendingPriceAlerts .none c := by
  by_cases h : db.getPendingPriceAlerts .none c = []
  · simp [PriceAlertCache.at, freshCache, h]
  · simp [PriceAlertCache.at, freshCache, h]

theorem run_refreshLoop (contracts : List Text) (next : PriceAlertCache) (w : World)
    (hnext : ∀ c, next c = none ∨ next c = w.db.freshCache c) :
    run exec (refreshLoop contracts next) w =
      (fun c => if c ∈ contracts then w.db.freshCache c else next c, w) := by
  induction contracts generalizing next with
  | nil => rfl
  | cons c rest ih =>
      change run exec (if w.db.getPendingPriceAlerts .none c ≠ [] then
        refreshLoop rest
          (Function.update next c (some (w.db.getPendingPriceAlerts .none c)))
        else refreshLoop rest next) w = _
      split
      · rename_i hne
        have hfresh : w.db.freshCache c = some (w.db.getPendingPriceAlerts .none c) :=
          if_neg hne
        rw [ih]
        · congr 1
          funext c'
          by_cases hc : c' = c
          · subst hc
            simp [hfresh]
          · simp [hc]
        · intro c'
          by_cases hc : c' = c
          · subst hc
            simp [hfresh]
          · simpa [hc] using hnext c'
      · rename_i hnil
        have hfresh : w.db.freshCache c = none := if_pos (not_not.mp hnil)
        have hc : next c = none := by
          rcases hnext c with h | h
          · exact h
          · rw [h, hfresh]
        rw [ih next hnext]
        congr 1
        funext c'
        by_cases hc' : c' = c
        · subst hc'
          simp [hfresh, hc]
        · simp [hc']

/-- A contract the refresh does not read has no pending price alert. -/
theorem freshCache_eq_none {db : AlertDB} {c : Text}
    (h : c ∉ db.getPendingContracts .none) : db.freshCache c = none := by
  refine if_pos ?_
  rw [AlertDB.getPendingPriceAlerts_none, Table.select, List.filter_eq_nil_iff]
  intro r hr hpending
  obtain ⟨hprice, rfl⟩ := of_decide_eq_true hpending
  apply h
  rw [AlertDB.getPendingContracts, Faults.none_query, List.mem_eraseDups, List.mem_map]
  exact ⟨r, List.mem_filter.mpr ⟨hr, decide_eq_true (of_decide_eq_true hprice).1⟩, rfl⟩

/-- A refresh that nothing interrupts makes the cache the fresh one. -/
theorem run_refresh (w : World) : run exec refreshPriceAlertCache w =
    ((), { w with priceAlertCache := w.db.freshCache }) := by
  have hcache : (fun c => if c ∈ w.db.getPendingContracts .none then w.db.freshCache c
      else none) = w.db.freshCache := by
    funext c
    split
    · rfl
    · rename_i h
      exact (freshCache_eq_none h).symm
  change run exec (refreshLoop (w.db.getPendingContracts .none) (fun _ => none) >>=
    fun next => ask (.swapCache next)) w = _
  rw [run_bind, run_refreshLoop _ _ _ fun _ => .inl rfl, hcache]
  rfl

/-! ## Coherence -/

/-- Every contract's entry holds the pending price alerts of the table. -/
def Coherent (w : World) : Prop :=
  ∀ c, w.priceAlertCache.at c = w.db.getPendingPriceAlerts .none c

theorem coherent_refresh (w : World) :
    Coherent (run exec refreshPriceAlertCache w).2 := by
  rw [run_refresh]
  exact w.db.freshCache_at

theorem Coherent.wellKeyed {w : World} (h : Coherent w) :
    WellKeyed w.priceAlertCache := by
  intro c rec hrec
  rw [h c, AlertDB.getPendingPriceAlerts_none, Table.mem_select,
    decide_eq_true_iff] at hrec
  exact ⟨hrec.2.2, hrec.2.1⟩

/-- What happens outside the alerts table and the cache does not matter. -/
theorem Coherent.congr {w w' : World} (h : Coherent w)
    (halerts : w'.db.alerts = w.db.alerts)
    (hcache : w'.priceAlertCache = w.priceAlertCache) : Coherent w' := by
  intro c
  rw [AlertDB.getPendingPriceAlerts_none, halerts, hcache, h c,
    AlertDB.getPendingPriceAlerts_none]

theorem Coherent.update {w : World} (h : Coherent w) {guard : AlertRecord → Bool}
    {f : AlertRecord → AlertRecord} {hf : ∀ r, (f r).id = r.id}
    (hout : ∀ r ∈ w.db.alerts.rows, guard r →
      ¬ AlertDB.pendingPrice r ∧ ¬ AlertDB.pendingPrice (f r)) :
    Coherent { w with db :=
      { w.db with alerts := w.db.alerts.update guard f hf } } := by
  intro c
  rw [AlertDB.getPendingPriceAlerts_none, Table.select_update_of_outside]
  · exact (h c).trans (w.db.getPendingPriceAlerts_none c)
  · intro r hr hg hq
    exact (hout r hr hg).1 (of_decide_eq_true hq).1
  · intro r hr hg hq
    exact (hout r hr hg).2 (of_decide_eq_true hq).1

/-! ## Commands -/

/-- A program that, run alone, keeps coherence. -/
def KeepsCoherence {α : Type} (p : Action α) : Prop :=
  ∀ w, Coherent w → Coherent (run exec p w).2

/-- Outside the refreshing commands every call keeps coherence. -/
theorem Coherent.exec_command {self : Session} {line : Bytes} {c : Call} {w : World}
    (hline : commandWord line ∉ refreshWords) (hc : SessionCall self line c)
    (h : Coherent w) : Coherent (exec c w).2 := by
  cases c with
  | registerUser => exact h.congr (exec_alerts_of_not_writes id w) rfl
  | setEmail => exact h.congr (exec_alerts_of_not_writes id w) rfl
  | addTimeAlert uid c t =>
      -- the new row is a time alert
      intro c'
      have hrows : (exec (.addTimeAlert uid c t) w).2.db.alerts.rows = w.db.alerts.rows ++
          [AlertDB.timeRow uid c t (w.clock 0).stamp (w.db.alerts.seq + 1)] := by
        rw [exec_alerts_rows]
        exact congrArg (· ++ _) (List.map_id _)
      have hnew : [AlertDB.timeRow uid c t (w.clock 0).stamp (w.db.alerts.seq + 1)].filter
          (fun r => AlertDB.pendingPrice r ∧ r.contract = c') = [] := by
        simp [AlertDB.timeRow, AlertDB.pendingPrice]
      rw [AlertDB.getPendingPriceAlerts_none, Table.select, hrows, List.filter_append,
        hnew, List.append_nil]
      exact (h c').trans (w.db.getPendingPriceAlerts_none c')
  | addPriceAlert => exact absurd (by simp [hc.1, refreshWords]) hline
  | deleteAlert => exact absurd (by simp [hc.1, refreshWords]) hline
  | modifyPriceAlert => exact absurd (by simp [hc.1, refreshWords]) hline
  | modifyTimeAlert => exact absurd (by simp [hc.1, refreshWords]) hline
  | swapCache => exact absurd hc.1 hline
  | subscribe c =>
      simp only [exec, execWith]
      split <;> exact h.congr rfl rfl
  | _ => first | exact hc.elim | exact h.congr rfl rfl

theorem keepsCoherence_of_ok {self : Session} {line : Bytes} {p : Handler}
    (hline : commandWord line ∉ refreshWords) (hp : HandlerOk self line p) :
    KeepsCoherence p := by
  intro w hw
  refine (hp.run Coherent (fun c w' hc h => ?_) hw).1
  exact ⟨h.exec_command hline hc, answer_exec c w'⟩

theorem keepsCoherence_sendLine (self : Session) (resp : Bytes) :
    KeepsCoherence (self.sendLine resp) := fun _ h => h

/-- After a refresh, a reply and a subscription leave the cache coherent. -/
theorem coherent_refresh_bind {k : Unit → Handler} (hk : KeepsCoherence (k ()))
    (w : World) : Coherent (run exec (refreshPriceAlertCache >>= k) w).2 := by
  rw [run_bind]
  exact hk _ (coherent_refresh w)

theorem keepsCoherence_subscribe {c : Bytes} {k : Unit → Handler}
    (hk : KeepsCoherence (k ())) : KeepsCoherence (ask (.subscribe c) >>= k) := by
  intro w hw
  refine hk _ ?_
  simp only [exec, execWith]
  split <;> exact hw.congr rfl rfl

theorem Coherent.store_update {w : World} (h : Coherent w) {guard : AlertRecord → Bool}
    {f : AlertRecord → AlertRecord} {hf : ∀ r, (f r).id = r.id}
    (hno : ¬ (w.db.updateAlerts .none guard f hf).1 = true) :
    Coherent (w.store (w.db.updateAlerts .none guard f hf)).2 := by
  rw [World.store, AlertDB.updateAlerts_of_not_true _ hno]
  exact h

theorem handleAddPrice_keepsCoherence (self : Session) (line : Bytes) :
    KeepsCoherence (handleAddPrice self line) := by
  unfold handleAddPrice
  split
  · exact keepsCoherence_sendLine _ _
  · split
    · split
      · exact keepsCoherence_sendLine _ _
      · rename_i contract price cond _ _ _
        intro w hw
        have hid : ¬ (exec (.addPriceAlert self.userId contract (atof price) (atoi cond))
            w).1 < 0 := by
          have hseq := w.db.alerts.seq_nonneg
          change ¬ w.db.alerts.seq + 1 < 0
          omega
        change Coherent (run exec (if (exec (.addPriceAlert self.userId contract
          (atof price) (atoi cond)) w).1 < 0 then _ else _) _).2
        rw [if_neg hid]
        refine coherent_refresh_bind ?_ _
        exact keepsCoherence_subscribe (keepsCoherence_sendLine _ _)
    · exact keepsCoherence_sendLine _ _

theorem handleDelete_keepsCoherence (self : Session) (line : Bytes) :
    KeepsCoherence (handleDelete self line) := by
  unfold handleDelete
  split
  · exact keepsCoherence_sendLine _ _
  · split
    · rename_i alertId _ _
      intro w hw
      change Coherent (run exec (if (exec (.deleteAlert (atoi alertId) self.userId)
        w).1 = true then _ else _) _).2
      split
      · exact coherent_refresh_bind (keepsCoherence_sendLine _ _) _
      · rename_i hno
        exact hw.store_update hno
    · exact keepsCoherence_sendLine _ _

theorem handleModifyPrice_keepsCoherence (self : Session) (line : Bytes) :
    KeepsCoherence (handleModifyPrice self line) := by
  unfold handleModifyPrice
  split
  · exact keepsCoherence_sendLine _ _
  · split
    · split
      · exact keepsCoherence_sendLine _ _
      · rename_i alertId contract price cond _ _ _
        intro w hw
        change Coherent (run exec (if (exec (.modifyPriceAlert (atoi alertId) self.userId
          contract (atof price) (atoi cond)) w).1 = true then _ else _) _).2
        split
        · refine coherent_refresh_bind ?_ _
          exact keepsCoherence_subscribe (keepsCoherence_sendLine _ _)
        · rename_i hno
          exact hw.store_update hno
    · exact keepsCoherence_sendLine _ _

theorem handleModifyTime_keepsCoherence (self : Session) (line : Bytes) :
    KeepsCoherence (handleModifyTime self line) := by
  unfold handleModifyTime
  split
  · exact keepsCoherence_sendLine _ _
  · split
    · rename_i alertId contract timeStr _ _
      intro w hw
      change Coherent (run exec (if (exec (.modifyTimeAlert (atoi alertId) self.userId
        contract timeStr) w).1 = true then _ else _) _).2
      split
      · exact coherent_refresh_bind (keepsCoherence_sendLine _ _) _
      · rename_i hno
        exact hw.store_update hno
    · exact keepsCoherence_sendLine _ _

/-- Every command keeps the cache coherent. -/
theorem dispatch_keepsCoherence (self : Session) (line : Bytes) :
    KeepsCoherence (dispatch self line) := by
  have hother : ∀ {word : Bytes} {p : Handler}, word ∉ refreshWords →
      (commandWord line = word → HandlerOk self line p) → commandWord line = word →
      KeepsCoherence p := fun hword hp h =>
    keepsCoherence_of_ok (h ▸ hword) (hp h)
  refine dispatch_rule self line ?_ ?_ (fun _ => handleAddPrice_keepsCoherence self line)
    ?_ (fun _ => handleDelete_keepsCoherence self line)
    (fun _ => handleModifyPrice_keepsCoherence self line)
    (fun _ => handleModifyTime_keepsCoherence self line) ?_ ?_ ?_ ?_
    (keepsCoherence_sendLine self _)
  · exact hother (by decide) handleRegister_ok
  · exact hother (by decide) handleLogin_ok
  · exact hother (by decide) handleAddTime_ok
  · exact hother (by decide) fun _ => handleQuery_ok
  · exact hother (by decide) handleSetEmail_ok
  · exact hother (by decide) fun _ => handleGetEmail_ok
  · rintro (h | h)
    · exact hother (by decide) (fun _ => handleGetPrices_ok) h
    · exact hother (by decide) (fun _ => handleGetPrices_ok) h

end CloudAlert
