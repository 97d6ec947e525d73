import CloudAlert.Server.Rows

/-!
# What a call does to a user row

`registerUser_outcome` is the inversion rule of `RegisterUser`: the username is
taken, its row is completed, or a row is inserted. `UserEdit` lists the ways a
call can change a user row. An id, a username and a non-empty password never
change (`user_after`), which is what a logged-in session relies on.
-/

namespace CloudAlert

namespace AlertDB

variable (db : AlertDB)

/-- The row of a username is the only one the lookup finds. -/
theorem selectUsername_eq {u : Bytes} {r : UserRow} (h : r ∈ db.users.rows)
    (hu : r.username = cstr u) : db.selectUsername u = [r] := by
  have hmem : ∀ r', r' ∈ db.selectUsername u ↔ r' ∈ [r] := by
    intro r'
    rw [selectUsername, Table.mem_select, List.mem_singleton, decide_eq_true_iff]
    constructor
    · rintro ⟨hr', hu'⟩
      exact List.inj_on_of_nodup_map db.unique hr' h (hu'.trans hu.symm)
    · rintro rfl
      exact ⟨h, hu⟩
  have hnodup : (db.selectUsername u).Nodup := db.users.nodup_rows.filter _
  exact List.perm_singleton.mp
    ((List.perm_ext_iff_of_nodup hnodup (List.nodup_singleton r)).mpr hmem)

theorem selectUsername_eq_nil {u : Bytes}
    (h : cstr u ∉ db.users.rows.map UserRow.username) : db.selectUsername u = [] := by
  rw [selectUsername, Table.select, List.filter_eq_nil_iff]
  intro r hr hu
  exact h (List.mem_map.mpr ⟨r, hr, of_decide_eq_true hu⟩)

theorem verifyLogin_of_mem {u : Bytes} {r : UserRow} (h : r ∈ db.users.rows)
    (hu : r.username = cstr u) (p : Bytes) :
    db.verifyLogin .none u p = if r.password.val = p then r.id else -1 := by
  simp [verifyLogin, db.selectUsername_eq h hu]

theorem verifyLogin_of_not_mem {u : Bytes}
    (h : cstr u ∉ db.users.rows.map UserRow.username) (p : Bytes) :
    db.verifyLogin .none u p = -1 := by
  simp [verifyLogin, db.selectUsername_eq_nil h]

theorem exists_of_verifyLogin {u p : Bytes} (h : 0 ≤ db.verifyLogin .none u p) :
    ∃ r ∈ db.users.rows, r.username = cstr u ∧ r.password.val = p ∧
      r.id = db.verifyLogin .none u p := by
  by_cases hu : cstr u ∈ db.users.rows.map UserRow.username
  · obtain ⟨r, hr, hru⟩ := List.mem_map.mp hu
    have hv := db.verifyLogin_of_mem hr hru p
    by_cases hp : r.password.val = p
    · rw [if_pos hp] at hv
      exact ⟨r, hr, hru, hp, hv.symm⟩
    · rw [if_neg hp] at hv
      omega
  · have hv := db.verifyLogin_of_not_mem hu p
    omega

section UpdateUser

variable {uid : ℤ} {pwd mail : Text → Text}

theorem updateUser_rows : (db.updateUser uid pwd mail).users.rows =
    db.users.rows.map fun r =>
      if r.id = uid then { r with password := pwd r.password, email := mail r.email }
      else r := by
  simp [updateUser]

theorem mem_updateUser {r : UserRow} (h : r ∈ db.users.rows) :
    (if r.id = uid then { r with password := pwd r.password, email := mail r.email }
      else r) ∈ (db.updateUser uid pwd mail).users.rows := by
  rw [updateUser_rows]
  exact List.mem_map.mpr ⟨r, h, rfl⟩

theorem exists_of_mem_updateUser {r' : UserRow}
    (h : r' ∈ (db.updateUser uid pwd mail).users.rows) :
    ∃ r ∈ db.users.rows, r' =
      if r.id = uid then { r with password := pwd r.password, email := mail r.email }
      else r := by
  rw [updateUser_rows, List.mem_map] at h
  obtain ⟨r, hr, rfl⟩ := h
  exact ⟨r, hr, rfl⟩

end UpdateUser

/-- What `RegisterUser` can do. -/
inductive RegisterOutcome (u p e : Bytes) : ℤ × AlertDB → Prop where
  | taken {r : UserRow} (hr : r ∈ db.users.rows) (hu : r.username = cstr u)
      (hp : r.password ≠ Text.empty ∨ r.id < 0) : RegisterOutcome u p e (-1, db)
  | completed {r : UserRow} (hr : r ∈ db.users.rows) (hu : r.username = cstr u)
      (hp : r.password = Text.empty) (hid : 0 ≤ r.id) :
      RegisterOutcome u p e
        (r.id, db.updateUser r.id (fun _ => cstr p) fun _ => cstr e)
  | inserted (hu : cstr u ∉ db.users.rows.map UserRow.username) :
      RegisterOutcome u p e (db.users.seq + 1,
        db.insertUser (cstr u) (cstr p) (cstr e) hu)

theorem registerUser_outcome (u p e : Bytes) :
    db.RegisterOutcome u p e (db.registerUser .none u p e) := by
  by_cases hu : cstr u ∈ db.users.rows.map UserRow.username
  · obtain ⟨r, hr, hru⟩ := List.mem_map.mp hu
    simp only [registerUser, Faults.none_prepare, Faults.none_step, Faults.none_firstRow,
      db.selectUsername_eq hr hru, List.head?_cons, Option.map_some, Option.getD_some,
      Bool.false_eq_true, ↓reduceIte]
    split
    · rename_i hid
      split
      · rename_i hp
        exact .taken hr hru (.inl hp)
      · rename_i hp
        exact .completed hr hru (not_not.mp hp) hid
    · rename_i hid
      exact .taken hr hru (.inr (by omega))
  · simp only [registerUser, Faults.none_prepare, Faults.none_step, Faults.none_firstRow,
      db.selectUsername_eq_nil hu, List.head?_nil, Option.map_none, Option.getD_none,
      Bool.false_eq_true, ↓reduceIte]
    rw [if_neg (by omega), dif_neg hu]
    exact .inserted hu

end AlertDB

/-! ## User rows -/

/-- How a call can change a user row. -/
inductive UserEdit : Call → UserRow → UserRow → Prop where
  | complete {u p e : Bytes} {r : UserRow} (hu : r.username = cstr u)
      (hp : r.password = Text.empty) :
      UserEdit (.registerUser u p e) r { r with password := cstr p, email := cstr e }
  | email {uid : ℤ} {e : Bytes} {r : UserRow} (hid : r.id = uid) :
      UserEdit (.setEmail uid e) r { r with email := cstr e }

/-- The calls that write to `users`. -/
def Call.writesUsers : Call → Prop
  | .registerUser _ _ _ => True
  | .setEmail _ _ => True
  | _ => False

theorem exec_users_of_not_writes {c : Call} (h : ¬ c.writesUsers) (w : World) :
    (exec c w).2.db.users = w.db.users := by
  cases c with
  | registerUser => exact absurd trivial h
  | setEmail => exact absurd trivial h
  | deleteAlert | modifyPriceAlert | modifyTimeAlert | triggerAlert =>
      simp only [exec, execWith, World.store, AlertDB.deleteAlert,
        AlertDB.modifyPriceAlert, AlertDB.modifyTimeAlert, AlertDB.triggerAlert,
        AlertDB.updateAlerts_none]
  | unregisterSocket =>
      simp only [exec, execWith]
      split <;> rfl
  | subscribe =>
      simp only [exec, execWith]
      split <;> rfl
  | _ => rfl

theorem exec_db_of_not_writes {c : Call} (h : ¬ c.writesAlerts ∧ ¬ c.writesUsers)
    (w : World) : (exec c w).2.db = w.db := by
  have halerts := exec_alerts_of_not_writes h.1 w
  have husers := exec_users_of_not_writes h.2 w
  generalize (exec c w).2.db = db' at halerts husers
  cases db'
  subst halerts husers
  rfl

theorem mem_users_after (c : Call) {w : World} {r : UserRow} (h : r ∈ w.db.users.rows) :
    ∃ r' ∈ (exec c w).2.db.users.rows, r' = r ∨ UserEdit c r r' := by
  by_cases hc : c.writesUsers
  · cases c with
    | registerUser u p e =>
        change ∃ r' ∈ (w.db.registerUser .none u p e).2.users.rows, _
        have hout := w.db.registerUser_outcome u p e
        generalize w.db.registerUser .none u p e = out at hout
        cases hout with
        | taken => exact ⟨r, h, .inl rfl⟩
        | @completed r₀ hr hu hp hid =>
            refine ⟨_, AlertDB.mem_updateUser _ h, ?_⟩
            split
            · rename_i hr₀
              obtain rfl := w.db.users.eq_of_key h hr hr₀
              exact .inr (.complete hu hp)
            · exact .inl rfl
        | inserted hu => exact ⟨r, List.mem_append_left _ h, .inl rfl⟩
    | setEmail uid e =>
        change ∃ r' ∈ (w.db.setEmail .none uid e).2.users.rows, _
        rw [AlertDB.setEmail_none]
        refine ⟨_, AlertDB.mem_updateUser _ h, ?_⟩
        split
        · rename_i hid
          exact .inr (.email hid)
        · exact .inl rfl
    | _ => exact hc.elim
  · rw [exec_users_of_not_writes hc]
    exact ⟨r, h, .inl rfl⟩

/-- A user row keeps its id and username, and its password once it has one. -/
theorem user_after (c : Call) {w : World} {r : UserRow} (h : r ∈ w.db.users.rows) :
    ∃ r' ∈ (exec c w).2.db.users.rows, r'.id = r.id ∧ r'.username = r.username ∧
      (r.password ≠ Text.empty → r'.password = r.password) := by
  obtain ⟨r', hr', rfl | hedit⟩ := mem_users_after c h
  · exact ⟨r', hr', rfl, rfl, fun _ => rfl⟩
  · cases hedit with
    | complete hu hp => exact ⟨_, hr', rfl, rfl, fun hne => absurd hp hne⟩
    | email hid => exact ⟨_, hr', rfl, rfl, fun _ => rfl⟩

/-- A check of a password stays valid. -/
theorem verifyLogin_after (c : Call) {w : World} {u p : Bytes} {uid : ℤ} (hp : p ≠ [])
    (huid : 0 ≤ uid) (h : w.db.verifyLogin .none u p = uid) :
    (exec c w).2.db.verifyLogin .none u p = uid := by
  subst h
  obtain ⟨r, hr, hname, hpassword, hid⟩ := w.db.exists_of_verifyLogin huid
  obtain ⟨r', hr', hid', hname', hkept⟩ := user_after c hr
  rw [AlertDB.verifyLogin_of_mem _ hr' (hname'.trans hname),
    hkept (Text.ne_empty (hpassword ▸ hp)), if_pos hpassword, hid', hid]

end CloudAlert
