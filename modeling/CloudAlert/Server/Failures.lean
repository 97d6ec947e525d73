import CloudAlert.Server.Accounts

/-!
# SQLite failures

`FaultyWorld` is the world together with the outcomes of the SQLite calls still to come,
one `Faults` for each call, and `execFaulty` runs a call under the first of them. A
statement about every `FaultyWorld` is a statement about every pattern of failures.

For each method that writes there is one lemma about what its result says of the tables.
A rejected call leaves them as they are. The converse fails in `RegisterUser`, which does
not look at the result of its UPDATE (`registerUser_faulty`).
-/

namespace CloudAlert

/-- The world, and the outcomes of the SQLite calls to come. -/
structure FaultyWorld where
  world : World
  sql : ℕ → Faults

/-- Runs a call under the next outcomes. -/
def execFaulty (c : Call) (s : FaultyWorld) : c.Ans × FaultyWorld :=
  ((execWith (s.sql 0) c s.world).1,
    ⟨(execWith (s.sql 0) c s.world).2, fun n => s.sql (n + 1)⟩)

/-- The only statement of a method call is prepared and its first step succeeds. -/
def Faults.Succeeds (sql : Faults) : Prop := sql.prepare 0 = false ∧ sql.step 0 = false

instance (sql : Faults) : Decidable sql.Succeeds := inferInstanceAs (Decidable (_ ∧ _))

theorem Faults.not_succeeds {sql : Faults} (h : ¬ sql.Succeeds) :
    sql.prepare 0 = true ∨ sql.step 0 = true := by
  simpa [Faults.Succeeds, -not_and, not_and_or] using h

/-! ## Queries -/

namespace Faults

variable {ρ : Type*} (sql : Faults)

/-- The `k`-th row is read exactly if no step up to it fails. -/
theorem fetch_getElem? (n : ℕ) (rows : List ρ) (k : ℕ) (r : ρ) :
    (sql.fetch n rows)[k]? = some r ↔
      rows[k]? = some r ∧ ∀ j ≤ k, sql.step (n + j) = false := by
  induction rows generalizing n k with
  | nil => simp [fetch]
  | cons r₀ rs ih =>
      rw [fetch]
      by_cases hstep : sql.step n = true
      · rw [if_pos hstep]
        refine iff_of_false (by simp) fun h => ?_
        exact Bool.false_ne_true ((h.2 0 (Nat.zero_le k)).symm.trans hstep)
      · rw [if_neg hstep]
        have hstep := Bool.eq_false_iff.mpr hstep
        cases k with
        | zero =>
            have hfirst : ∀ j ≤ 0, sql.step (n + j) = false := fun j hj => by
              rwa [Nat.le_zero.mp hj]
            exact ⟨fun h => ⟨h, hfirst⟩, And.left⟩
        | succ k =>
            rw [List.getElem?_cons_succ, List.getElem?_cons_succ, ih]
            refine and_congr_right fun _ => ⟨fun h j hj => ?_, fun h j hj => ?_⟩
            · cases j with
              | zero => exact hstep
              | succ j =>
                  rw [Nat.add_succ, ← Nat.succ_add]
                  exact h j (Nat.le_of_succ_le_succ hj)
            · rw [Nat.succ_add, ← Nat.add_succ]
              exact h (j + 1) (Nat.succ_le_succ hj)

theorem query_getElem? (rows : List ρ) (k : ℕ) (r : ρ) :
    (sql.query rows)[k]? = some r ↔
      rows[k]? = some r ∧ sql.prepare 0 = false ∧ ∀ j ≤ k, sql.step j = false := by
  rw [query]
  by_cases hprepare : sql.prepare 0 = true
  · rw [if_pos hprepare]
    exact iff_of_false (by simp) fun h => Bool.false_ne_true (h.2.1.symm.trans hprepare)
  · rw [if_neg hprepare, fetch_getElem?]
    have hprepare := Bool.eq_false_iff.mpr hprepare
    simp only [Nat.zero_add, hprepare, true_and]

/-- A row is read exactly if nothing fails up to it. -/
theorem mem_query_iff (rows : List ρ) (r : ρ) : r ∈ sql.query rows ↔
    ∃ k, rows[k]? = some r ∧ sql.prepare 0 = false ∧ ∀ j ≤ k, sql.step j = false := by
  rw [List.mem_iff_getElem?]
  exact exists_congr fun k => sql.query_getElem? rows k r

theorem fetch_isPrefix (n : ℕ) (rows : List ρ) : sql.fetch n rows <+: rows := by
  induction rows generalizing n with
  | nil => exact List.prefix_rfl
  | cons r rs ih =>
      rw [fetch]
      split
      · exact List.nil_prefix
      · exact (List.prefix_cons_inj r).mpr (ih (n + 1))

theorem query_isPrefix (rows : List ρ) : sql.query rows <+: rows := by
  rw [query]
  split
  · exact List.nil_prefix
  · exact sql.fetch_isPrefix 0 rows

/-- The failure that cuts the answer of a query to its first `k` rows. -/
def CutsAt (k : ℕ) : Prop := sql.prepare 0 = true ∧ k = 0 ∨ sql.step k = true

theorem query_length_le (rows : List ρ) {k : ℕ} (h : sql.CutsAt k) :
    (sql.query rows).length ≤ k := by
  by_contra hlong
  have hread := List.getElem?_eq_getElem (not_le.mp hlong)
  rw [query_getElem?] at hread
  obtain ⟨-, hprepare, hsteps⟩ := hread
  rcases h with ⟨hfails, -⟩ | hfails
  · exact Bool.false_ne_true (hprepare.symm.trans hfails)
  · exact Bool.false_ne_true ((hsteps k le_rfl).symm.trans hfails)

/-- An answer that is not whole was cut by a failure. -/
theorem exists_cut (rows : List ρ) (h : sql.query rows ≠ rows) :
    ∃ k < rows.length, sql.CutsAt k ∧ sql.query rows = rows.take k := by
  have hprefix := sql.query_isPrefix rows
  have hshort : (sql.query rows).length < rows.length := by
    refine lt_of_le_of_ne hprefix.length_le fun hlength => h ?_
    exact hprefix.eq_of_length hlength
  have htake : sql.query rows = rows.take (sql.query rows).length :=
    List.prefix_iff_eq_take.mp hprefix
  by_cases hprepare : sql.prepare 0 = true
  · have hnone : sql.query rows = [] := if_pos hprepare
    rw [hnone] at hshort ⊢
    exact ⟨0, hshort, .inl ⟨hprepare, rfl⟩, List.take_zero.symm⟩
  · refine ⟨_, hshort, .inr ?_, htake⟩
    by_contra hstep
    -- the row after the last one read would have been read as well
    have hnext := (sql.query_getElem? rows (sql.query rows).length _).mpr
      ⟨List.getElem?_eq_getElem hshort, Bool.eq_false_iff.mpr hprepare, fun j hj => ?_⟩
    · rw [List.getElem?_eq_none le_rfl] at hnext
      cases hnext
    · rcases hj.lt_or_eq with hlt | rfl
      · have hread := List.getElem?_eq_getElem hlt
        exact ((sql.query_getElem? rows j _).mp hread).2.2 j le_rfl
      · exact Bool.eq_false_iff.mpr hstep

end Faults

namespace AlertDB

variable (db : AlertDB) (sql : Faults)

/-! ## Alerts -/

section Insert

variable {mk : ℤ → AlertRecord} {hmk : ∀ id, (mk id).id = id}

theorem insertAlert_of_succeeds (h : sql.Succeeds) : db.insertAlert sql mk hmk =
    (db.alerts.seq + 1, { db with alerts := db.alerts.insert mk hmk }) := by
  simp [insertAlert, h.1, h.2]

theorem insertAlert_of_fails (h : ¬ sql.Succeeds) :
    db.insertAlert sql mk hmk = (-1, db) := by
  rcases Faults.not_succeeds h with hprepare | hstep
  · simp [insertAlert, hprepare]
  · simp [insertAlert, hstep]

theorem insertAlert_neg : (db.insertAlert sql mk hmk).1 < 0 ↔ ¬ sql.Succeeds := by
  constructor
  · intro hneg h
    rw [db.insertAlert_of_succeeds sql h] at hneg
    have hseq := db.alerts.seq_nonneg
    dsimp only at hneg
    omega
  · intro h
    rw [db.insertAlert_of_fails sql h]
    exact neg_one_lt_zero

theorem insertAlert_rejected (h : (db.insertAlert sql mk hmk).1 < 0) :
    (db.insertAlert sql mk hmk).2 = db := by
  rw [db.insertAlert_of_fails sql ((db.insertAlert_neg sql).mp h)]

end Insert

section Update

variable {guard : AlertRecord → Bool} {f : AlertRecord → AlertRecord}
  {hf : ∀ r, (f r).id = r.id}

theorem updateAlerts_of_succeeds (h : sql.Succeeds) :
    db.updateAlerts sql guard f hf = db.updateAlerts .none guard f hf := by
  simp [updateAlerts, h.1, h.2]

theorem updateAlerts_of_fails (h : ¬ sql.Succeeds) :
    db.updateAlerts sql guard f hf = (false, db) := by
  rcases Faults.not_succeeds h with hprepare | hstep
  · simp [updateAlerts, hprepare]
  · simp [updateAlerts, hstep]

theorem updateAlerts_faulty_true : (db.updateAlerts sql guard f hf).1 = true ↔
    sql.Succeeds ∧ ∃ r ∈ db.alerts.rows, guard r := by
  by_cases h : sql.Succeeds
  · rw [db.updateAlerts_of_succeeds sql h, updateAlerts_true]
    exact ⟨fun hrow => ⟨h, hrow⟩, And.right⟩
  · rw [db.updateAlerts_of_fails sql h]
    exact iff_of_false Bool.false_ne_true fun hboth => h hboth.1

theorem updateAlerts_rejected (h : ¬ (db.updateAlerts sql guard f hf).1 = true) :
    (db.updateAlerts sql guard f hf).2 = db := by
  by_cases hdone : sql.Succeeds
  · rw [db.updateAlerts_of_succeeds sql hdone] at h ⊢
    exact db.updateAlerts_of_not_true h
  · rw [db.updateAlerts_of_fails sql hdone]

theorem updateAlerts_done (h : (db.updateAlerts sql guard f hf).1 = true) :
    ∃ r ∈ db.alerts.rows, guard r ∧
    f r ∈ (db.updateAlerts sql guard f hf).2.alerts.rows := by
  obtain ⟨hdone, r, hr, hguard⟩ := (db.updateAlerts_faulty_true sql).mp h
  refine ⟨r, hr, hguard, ?_⟩
  rw [db.updateAlerts_of_succeeds sql hdone, updateAlerts_none, Table.update_rows]
  exact List.mem_map.mpr ⟨r, hr, if_pos hguard⟩

end Update

/-! ## Users -/

theorem setEmail_of_succeeds (h : sql.Succeeds) (uid : ℤ) (e : Bytes) :
    db.setEmail sql uid e = (true, db.updateUser uid id fun _ => cstr e) := by
  simp [setEmail, h.1, h.2]

theorem setEmail_of_fails (h : ¬ sql.Succeeds) (uid : ℤ) (e : Bytes) :
    db.setEmail sql uid e = (false, db) := by
  rcases Faults.not_succeeds h with hprepare | hstep
  · simp [setEmail, hprepare]
  · simp [setEmail, hstep]

theorem setEmail_rejected {uid : ℤ} {e : Bytes} (h : ¬ (db.setEmail sql uid e).1 = true) :
    (db.setEmail sql uid e).2 = db := by
  by_cases hdone : sql.Succeeds
  · exact absurd (by rw [db.setEmail_of_succeeds sql hdone]) h
  · rw [db.setEmail_of_fails sql hdone]

/-- A login that is accepted under failures has read the row. -/
theorem exists_of_verifyLogin_faulty {u p : Bytes} (h : 0 ≤ db.verifyLogin sql u p) :
    ∃ r ∈ db.users.rows, r.username = cstr u ∧ r.password.val = p ∧
      r.id = db.verifyLogin sql u p := by
  unfold verifyLogin at h ⊢
  split at h
  · omega
  · rename_i hprepare
    rw [if_neg hprepare]
    split at h
    · rename_i r hrow
      obtain ⟨-, hrow⟩ := Option.ite_none_left_eq_some.mp hrow
      obtain ⟨hr, hu⟩ := (Table.mem_select _).mp (List.mem_of_mem_head? hrow)
      split at h
      · rename_i hp
        exact ⟨r, hr, of_decide_eq_true hu, hp, (if_pos hp).symm⟩
      · omega
    · omega

/-- `RegisterUser` finds a row without a password and prepares its UPDATE. -/
def Completes (u : Bytes) : Prop :=
  sql.prepare 0 = false ∧ sql.step 0 = false ∧ sql.prepare 1 = false ∧
    ∃ r ∈ db.users.rows, r.username = cstr u ∧ r.password = Text.empty ∧ 0 ≤ r.id

/-- Its INSERT succeeds. -/
def Inserts (u : Bytes) : Prop :=
  sql.prepare 0 = false ∧ sql.prepare 1 = false ∧ sql.step 1 = false ∧
    cstr u ∉ db.users.rows.map UserRow.username

/-- What `RegisterUser` can do under failures. -/
inductive FaultyRegister (u p e : Bytes) : ℤ × AlertDB → Prop where
  | refused (hcompletes : ¬ db.Completes sql u) (hinserts : ¬ db.Inserts sql u) :
      FaultyRegister u p e (-1, db)
  | lost {r : UserRow} (hcompletes : db.Completes sql u) (hr : r ∈ db.users.rows)
      (hu : r.username = cstr u) (hp : r.password = Text.empty) (hid : 0 ≤ r.id)
      (hstep : sql.step 1 = true) : FaultyRegister u p e (r.id, db)
  | completed {r : UserRow} (hcompletes : db.Completes sql u) (hr : r ∈ db.users.rows)
      (hu : r.username = cstr u) (hid : 0 ≤ r.id) (hstep : sql.step 1 = false) :
      FaultyRegister u p e (r.id, db.updateUser r.id (fun _ => cstr p) fun _ => cstr e)
  | inserted (hinserts : db.Inserts sql u)
      (hu : cstr u ∉ db.users.rows.map UserRow.username) :
      FaultyRegister u p e (db.users.seq + 1, db.insertUser (cstr u) (cstr p) (cstr e) hu)

theorem registerUser_insert {u p e : Bytes} (hcompletes : ¬ db.Completes sql u)
    (hprepare : sql.prepare 0 = false) :
    db.FaultyRegister sql u p e
      (if sql.prepare 1 then (-1, db)
      else if sql.step 1 then (-1, db)
      else if h : cstr u ∈ db.users.rows.map UserRow.username then (-1, db)
      else (db.users.seq + 1, db.insertUser (cstr u) (cstr p) (cstr e) h)) := by
  split
  · rename_i hprepare'
    exact .refused hcompletes fun h => Bool.false_ne_true (h.2.1.symm.trans hprepare')
  · rename_i hprepare'
    split
    · rename_i hstep
      exact .refused hcompletes fun h => Bool.false_ne_true (h.2.2.1.symm.trans hstep)
    · rename_i hstep
      split
      · rename_i hu
        exact .refused hcompletes fun h => h.2.2.2 hu
      · rename_i hu
        exact .inserted ⟨hprepare, Bool.eq_false_iff.mpr hprepare',
          Bool.eq_false_iff.mpr hstep, hu⟩ hu

theorem registerUser_faulty (u p e : Bytes) :
    db.FaultyRegister sql u p e (db.registerUser sql u p e) := by
  unfold registerUser
  split
  · rename_i hprepare
    exact .refused (fun h => Bool.false_ne_true (h.1.symm.trans hprepare))
      fun h => Bool.false_ne_true (h.1.symm.trans hprepare)
  · rename_i hprepare
    have hprepare := Bool.eq_false_iff.mpr hprepare
    dsimp only
    cases hrow : sql.firstRow 0 (db.selectUsername u) with
    | none =>
        rw [Option.map_none, Option.getD_none, if_neg (by decide)]
        refine db.registerUser_insert sql ?_ hprepare
        rintro ⟨-, hstep, -, r, hr, hu, -⟩
        rw [Faults.firstRow, hstep, db.selectUsername_eq hr hu] at hrow
        cases hrow
    | some r =>
        obtain ⟨hstep, hhead⟩ := Option.ite_none_left_eq_some.mp hrow
        have hstep := Bool.eq_false_iff.mpr hstep
        obtain ⟨hr, hu⟩ := (Table.mem_select _).mp (List.mem_of_mem_head? hhead)
        have hu := of_decide_eq_true hu
        have honly : ∀ r' ∈ db.users.rows, r'.username = cstr u → r' = r :=
          fun r' hr' hu' =>
          List.inj_on_of_nodup_map db.unique hr' hr (hu'.trans hu.symm)
        rw [Option.map_some, Option.map_some, Option.getD_some, Option.getD_some]
        split
        · rename_i hid
          have htaken : ¬ db.Inserts sql u := fun h =>
            h.2.2.2 (List.mem_map.mpr ⟨r, hr, hu⟩)
          split
          · rename_i hp
            refine .refused ?_ htaken
            rintro ⟨-, -, -, r', hr', hu', hp', -⟩
            exact hp (honly r' hr' hu' ▸ hp')
          · rename_i hp
            have hp := not_not.mp hp
            split
            · rename_i hprepare'
              exact .refused (fun h => Bool.false_ne_true (h.2.2.1.symm.trans hprepare'))
                htaken
            · rename_i hprepare'
              have hcompletes : db.Completes sql u :=
                ⟨hprepare, hstep, Bool.eq_false_iff.mpr hprepare', r, hr, hu, hp, hid⟩
              split
              · rename_i hstep'
                exact .lost hcompletes hr hu hp hid hstep'
              · rename_i hstep'
                exact .completed hcompletes hr hu hid (Bool.eq_false_iff.mpr hstep')
        · rename_i hid
          refine db.registerUser_insert sql ?_ hprepare
          rintro ⟨-, -, -, r', hr', hu', -, hid'⟩
          exact hid (honly r' hr' hu' ▸ hid')

/-- A rejected REGISTER leaves the tables as they are. -/
theorem registerUser_rejected {u p e : Bytes} (h : (db.registerUser sql u p e).1 < 0) :
    (db.registerUser sql u p e).2 = db := by
  have hout := db.registerUser_faulty sql u p e
  generalize db.registerUser sql u p e = out at h hout
  cases hout with
  | refused => rfl
  | lost => rfl
  | completed _ _ _ hid => exact absurd h (not_lt.mpr hid)
  | inserted =>
      have hseq := db.users.seq_nonneg
      dsimp only at h
      omega

/-- The tables with one pending price alert. -/
def oneAlert : AlertDB :=
  (created.addPriceAlert .none 1 (ascii "au2512") 500 condGE Text.empty).2

end AlertDB

end CloudAlert
