import CloudAlert.Engine.Coherence
import CloudAlert.Server.Failures
import CloudAlert.Server.History

/-!
# A reload under failures

`RefreshPriceAlertCache` reads the list of contracts and then the alerts of each contract,
takes every answer for a whole one, and replaces the cache by what it has read. What the
new cache holds is what no failure kept from being read (`mem_reloaded_iff`).
-/

namespace CloudAlert

open Program

/-! ## The contracts -/

theorem nodup_eraseDups {α : Type*} [DecidableEq α] (l : List α) : l.eraseDups.Nodup := by
  induction hn : l.length using Nat.strong_induction_on generalizing l with
  | _ n ih =>
    subst hn
    cases l with
    | nil => exact List.nodup_nil
    | cons a rest =>
        rw [List.eraseDups_cons, List.nodup_cons, List.mem_eraseDups]
        constructor
        · intro ha
          simpa using (List.mem_filter.mp ha).2
        · refine ih _ ?_ _ rfl
          exact Nat.lt_succ_of_le (List.length_filter_le _ rest)

/-- The contracts of the pending alerts, in the order of the reload. -/
def AlertDB.pendingContracts (db : AlertDB) : List Text :=
  ((db.alerts.select fun r => r.status = 0).map AlertRecord.contract).eraseDups

/-- The pending price alerts of a contract, in the order of the reload. -/
def AlertDB.pendingOf (db : AlertDB) (c : Text) : List AlertRecord :=
  db.alerts.select fun r => pendingPrice r ∧ r.contract = c

/-- Every statement of the call works up to the row with index `k`. -/
def Faults.ReadsUpTo (sql : Faults) (k : ℕ) : Prop :=
  sql.prepare 0 = false ∧ ∀ j ≤ k, sql.step j = false

/-- No failure keeps the reload from the alert: the list of contracts is read up to its
contract, and the alerts of the contract are read up to it. -/
def ReadBack (s : FaultyWorld) (r : AlertRecord) : Prop :=
  ∃ i k, s.world.db.pendingContracts[i]? = some r.contract ∧ (s.sql 0).ReadsUpTo i ∧
    (s.world.db.pendingOf r.contract)[k]? = some r ∧ (s.sql (i + 1)).ReadsUpTo k

/-! ## The loop -/

theorem at_added {next : PriceAlertCache} {c₀ : Text} (hnone : next c₀ = none)
    (records : List AlertRecord) (c : Text) :
    PriceAlertCache.at (if records ≠ [] then Function.update next c₀ (some records)
      else next) c = if c = c₀ then records else next.at c := by
  by_cases hc : c = c₀
  · subst hc
    rw [if_pos rfl]
    split
    · rw [PriceAlertCache.at, Function.update_self, Option.getD_some]
    · rename_i hempty
      rw [PriceAlertCache.at, hnone, Option.getD_none, not_not.mp hempty]
  · rw [if_neg hc]
    split
    · rw [PriceAlertCache.at, Function.update_of_ne hc, PriceAlertCache.at]
    · rfl

/-- The loop collects the answers of its queries. -/
theorem run_refreshLoop_faulty (contracts : List Text) (next : PriceAlertCache)
    (s : FaultyWorld) (hnodup : contracts.Nodup)
    (hnext : ∀ c ∈ contracts, next c = none) :
    (run execFaulty (refreshLoop contracts next) s).2.world = s.world ∧
      ∀ c r, r ∈ (run execFaulty (refreshLoop contracts next) s).1.at c ↔
        r ∈ next.at c ∨ ∃ i, contracts[i]? = some c ∧
          r ∈ s.world.db.getPendingPriceAlerts (s.sql i) c := by
  induction contracts generalizing next s with
  | nil => exact ⟨rfl, fun c r => ⟨.inl, fun h => h.elim id nofun⟩⟩
  | cons c₀ rest ih =>
      obtain ⟨hfirst, hrest⟩ := List.nodup_cons.mp hnodup
      obtain ⟨hnone, hnext⟩ := List.forall_mem_cons.mp hnext
      -- the answer for the first contract becomes its entry unless it is empty
      have hloop : run execFaulty (refreshLoop (c₀ :: rest) next) s =
          run execFaulty (refreshLoop rest
            (if s.world.db.getPendingPriceAlerts (s.sql 0) c₀ ≠ [] then
              Function.update next c₀
                (some (s.world.db.getPendingPriceAlerts (s.sql 0) c₀))
            else next)) ⟨s.world, fun n => s.sql (n + 1)⟩ := by
        change run execFaulty
          (if s.world.db.getPendingPriceAlerts (s.sql 0) c₀ ≠ [] then _
          else _) _ = _
        split <;> rfl
      have hnext' :
          ∀ c ∈ rest, (if s.world.db.getPendingPriceAlerts (s.sql 0) c₀ ≠ [] then
          Function.update next c₀ (some (s.world.db.getPendingPriceAlerts (s.sql 0) c₀))
          else next) c = none := by
        intro c hc
        have hne : c ≠ c₀ := fun heq => hfirst (heq ▸ hc)
        split
        · rw [Function.update_of_ne hne, hnext c hc]
        · exact hnext c hc
      obtain ⟨hworld, hmem⟩ := ih _ ⟨s.world, fun n => s.sql (n + 1)⟩ hrest hnext'
      rw [hloop]
      refine ⟨hworld, fun c r => (hmem c r).trans ?_⟩
      have hsplit := Nat.or_exists_add_one (p := fun i => (c₀ :: rest)[i]? = some c ∧
        r ∈ s.world.db.getPendingPriceAlerts (s.sql i) c)
      rw [at_added hnone, ← hsplit, List.getElem?_cons_zero, Option.some_inj, ← or_assoc]
      refine or_congr ?_ Iff.rfl
      by_cases hc : c = c₀
      · subst hc
        have hempty : next.at c = [] := by
          rw [PriceAlertCache.at, hnone, Option.getD_none]
        rw [if_pos rfl, hempty, and_iff_right rfl]
        exact (or_iff_right List.not_mem_nil).symm
      · rw [if_neg hc]
        exact (or_iff_left fun h => hc h.1.symm).symm

/-- The reload replaces the cache by what its queries answer. -/
theorem run_refresh_faulty (s : FaultyWorld) :
    ∃ next : PriceAlertCache, (run execFaulty refreshPriceAlertCache s).2.world =
        { s.world with priceAlertCache := next } ∧
      ∀ c r, r ∈ next.at c ↔
      ∃ i, ((s.sql 0).query s.world.db.pendingContracts)[i]? = some c ∧
        r ∈ (s.sql (i + 1)).query (s.world.db.pendingOf c) := by
  have hnodup : ((s.sql 0).query s.world.db.pendingContracts).Nodup :=
    (nodup_eraseDups _).sublist ((s.sql 0).query_isPrefix _).sublist
  obtain ⟨hworld, hmem⟩ := run_refreshLoop_faulty _ (fun _ => none)
    ⟨s.world, fun n => s.sql (n + 1)⟩ hnodup fun _ _ => rfl
  have hrun : (run execFaulty refreshPriceAlertCache s).2.world =
      { (run execFaulty
          (refreshLoop ((s.sql 0).query s.world.db.pendingContracts) fun _ => none)
          ⟨s.world, fun n => s.sql (n + 1)⟩).2.world with
        priceAlertCache := (run execFaulty (refreshLoop
          ((s.sql 0).query s.world.db.pendingContracts) fun _ => none)
          ⟨s.world, fun n => s.sql (n + 1)⟩).1 } := by
    change (run execFaulty
      (refreshLoop _ _ >>= fun next => ask (.swapCache next)) _).2.world = _
    rw [run_bind]
    rfl
  refine ⟨_, hrun.trans (by rw [hworld]), fun c r => (hmem c r).trans ?_⟩
  exact or_iff_right List.not_mem_nil

/-- After a reload the cache holds the alerts that were read back. -/
theorem mem_reloaded_iff (s : FaultyWorld) (c : Text) (r : AlertRecord) :
    r ∈ (run execFaulty refreshPriceAlertCache s).2.world.priceAlertCache.at c ↔
      r.contract = c ∧ ReadBack s r := by
  obtain ⟨next, hrun, hnext⟩ := run_refresh_faulty s
  rw [hrun, hnext]
  constructor
  · rintro ⟨i, hi, hr⟩
    obtain ⟨hc, hlist⟩ := ((s.sql 0).query_getElem? _ i c).mp hi
    obtain ⟨k, hk, hread⟩ := ((s.sql (i + 1)).mem_query_iff _ r).mp hr
    have hpending := (Table.mem_select _).mp (List.mem_of_getElem? hk)
    obtain ⟨-, rfl⟩ := of_decide_eq_true hpending.2
    exact ⟨rfl, i, k, hc, hlist, hk, hread⟩
  · rintro ⟨rfl, i, k, hc, hlist, hk, hread⟩
    exact ⟨i, ((s.sql 0).query_getElem? _ i _).mpr ⟨hc, hlist⟩,
      ((s.sql (i + 1)).mem_query_iff _ r).mpr ⟨k, hk, hread⟩⟩

theorem ReadBack.mem {s : FaultyWorld} {r : AlertRecord} (h : ReadBack s r) :
    r ∈ s.world.db.alerts.rows := by
  obtain ⟨-, k, -, -, hk, -⟩ := h
  exact ((Table.mem_select _).mp (List.mem_of_getElem? hk)).1

/-! ## What a reload loses -/

/-- The cache has a copy of the alert. -/
def PriceAlertCache.Has (cache : PriceAlertCache) (alertId : ℤ) : Prop :=
  ∃ c, ∃ rec ∈ cache.at c, rec.id = alertId

/-- A reload keeps every pending price alert it finds in the cache exactly if no failure
keeps it from reading one of them back. -/
theorem reload_keeps_iff (s : FaultyWorld) :
    (∀ r ∈ s.world.db.alerts.rows, AlertDB.pendingPrice r →
      s.world.priceAlertCache.Has r.id →
      (run execFaulty refreshPriceAlertCache s).2.world.priceAlertCache.Has r.id) ↔
      ∀ r ∈ s.world.db.alerts.rows, AlertDB.pendingPrice r →
        s.world.priceAlertCache.Has r.id → ReadBack s r := by
  refine forall₂_congr fun r hr => forall₂_congr fun _ _ => ?_
  constructor
  · rintro ⟨c, rec, hrec, hid⟩
    obtain ⟨-, hread⟩ := (mem_reloaded_iff s c rec).mp hrec
    obtain rfl := s.world.db.alerts.eq_of_key hread.mem hr hid
    exact hread
  · intro hread
    exact ⟨r.contract, r, (mem_reloaded_iff s _ r).mpr ⟨rfl, hread⟩, rfl⟩

/-- The alert is in the cache, the list of contracts cannot be prepared, and the reload
leaves the cache empty. -/
theorem failed_reload_disarms :
    ¬ ∀ s : FaultyWorld, ∀ r ∈ s.world.db.alerts.rows, AlertDB.pendingPrice r →
      s.world.priceAlertCache.Has r.id →
      (run execFaulty refreshPriceAlertCache s).2.world.priceAlertCache.Has r.id := by
  intro hall
  let r := AlertDB.priceRow 1 (ascii "au2512") 500 condGE Text.empty 1
  have hr : r ∈ AlertDB.oneAlert.alerts.rows := List.mem_singleton_self _
  have hcached : AlertDB.oneAlert.freshCache.Has r.id := by
    refine ⟨r.contract, r, ?_, rfl⟩
    rw [AlertDB.freshCache_at, AlertDB.getPendingPriceAlerts_none]
    exact (Table.mem_select _).mpr ⟨hr, decide_eq_true ⟨rfl, rfl⟩⟩
  obtain ⟨c, rec, hrec, -⟩ :=
    hall ⟨{ World.fresh .oneAlert true fun _ => ⟨2025, 6, 0, 9, 30, 0⟩ with
      priceAlertCache := AlertDB.oneAlert.freshCache },
      fun _ => ⟨fun _ => true, fun _ => false⟩⟩ r hr rfl hcached
  obtain ⟨-, i, k, -, hlist, -⟩ := (mem_reloaded_iff _ c rec).mp hrec
  exact Bool.false_ne_true hlist.1.symm

end CloudAlert
