import CloudAlert.Server.Accounts
import CloudAlert.Session.Commands

/-!
# What a command line can change

`CommandFrame` is the frame of a command line: what it leaves alone in the two
tables, whatever the line says. The parts about alerts and about foreign users
are invariants of every call a session makes; REGISTER and SET_EMAIL are read
off their runs.
-/

namespace CloudAlert

open Program

/-- What REGISTER does to the users table: nothing, a new row, or a row without a
password filled in. -/
inductive RegisterEffect (rows : List UserRow) : List UserRow → Prop where
  | refused : RegisterEffect rows rows
  | added (r : UserRow) : RegisterEffect rows (rows ++ [r])
  | filled {r : UserRow} (hr : r ∈ rows) (hempty : r.password = Text.empty)
      (password email : Text) :
      RegisterEffect rows (rows.map fun r' =>
        if r'.id = r.id then { r' with password, email } else r')

/-- The frame of a command line of the session `self`. -/
structure CommandFrame (self : Session) (line : Bytes) (db db' : AlertDB) : Prop where
  /-- Without a login nothing happens to the alerts. -/
  alerts_of_no_login : self.userId < 0 → db'.alerts = db.alerts
  /-- Without a login only REGISTER does anything to the users. -/
  users_of_no_login : self.userId < 0 → commandWord line ≠ ascii "REGISTER" →
    db'.users = db.users
  /-- REGISTER adds a row or fills one in. -/
  register : commandWord line = ascii "REGISTER" →
    RegisterEffect db.users.rows db'.users.rows
  /-- The alerts of other users stay as they are. -/
  foreign_alerts : 0 ≤ self.userId →
    db'.alerts.rows.filter (fun r => r.userId ≠ self.userId) =
      db.alerts.rows.filter fun r => r.userId ≠ self.userId
  /-- The rows of other users stay as they are, but for REGISTER. -/
  foreign_users : 0 ≤ self.userId → commandWord line ≠ ascii "REGISTER" →
    db'.users.rows.filter (fun r => r.id ≠ self.userId) =
      db.users.rows.filter fun r => r.id ≠ self.userId
  /-- SET_EMAIL changes an e-mail address only with the user's own name and stored
  password in the line. -/
  email : commandWord line = ascii "SET_EMAIL" →
    ∀ r ∈ db.users.rows, ∀ r' ∈ db'.users.rows, r'.id = r.id → r'.email ≠ r.email →
      r.id = self.userId ∧ ∃ word u p e rest,
        splitLine line = word :: u :: p :: e :: rest ∧ cstr u = r.username ∧
          p = r.password.val

/-! ## Calls -/

section

variable {self : Session} {line : Bytes} {c : Call}

theorem alerts_of_no_login (hself : self.userId < 0) (hc : SessionCall self line c)
    (w : World) : (exec c w).2.db.alerts = w.db.alerts := by
  refine exec_alerts_of_not_writes (fun hwrites => ?_) w
  cases c <;> first
    | exact hwrites
    | exact hc
    | exact absurd hself (not_lt.mpr hc.2.1)

theorem users_of_no_login (hself : self.userId < 0)
    (hline : commandWord line ≠ ascii "REGISTER") (hc : SessionCall self line c)
    (w : World) : (exec c w).2.db.users = w.db.users := by
  refine exec_users_of_not_writes (fun hwrites => ?_) w
  cases c with
  | registerUser => exact hline hc.1
  | setEmail => exact absurd hself (not_lt.mpr hc.2.1)
  | _ => exact hwrites

/-- A call of a session edits only rows of its user. -/
theorem apply_foreign (hc : SessionCall self line c) {r : AlertRecord}
    (hr : r.userId ≠ self.userId) : c.apply r = r := by
  refine if_neg fun hg => hr ?_
  cases c with
  | deleteAlert id uid => exact (AlertDB.ownGuard_iff.mp hg).2.1.trans hc.2.2
  | modifyPriceAlert id uid c p cond =>
      exact (AlertDB.ownGuard_iff.mp hg).2.1.trans hc.2.2.1
  | modifyTimeAlert id uid c t => exact (AlertDB.ownGuard_iff.mp hg).2.1.trans hc.2.2
  | triggerAlert rec ts => exact hc.elim
  | _ => cases hg

/-- A call of a session adds only rows of its user. -/
theorem newRows_own (hc : SessionCall self line c) {w : World} {r : AlertRecord}
    (hr : r ∈ c.newRows w) : r.userId = self.userId := by
  cases c with
  | addPriceAlert uid c p cond =>
      obtain rfl := List.mem_singleton.mp hr
      exact hc.2.2.1
  | addTimeAlert uid c t =>
      obtain rfl := List.mem_singleton.mp hr
      exact hc.2.2
  | _ => cases hr

theorem foreign_alerts_exec (hc : SessionCall self line c) (w : World) :
    (exec c w).2.db.alerts.rows.filter (fun r => r.userId ≠ self.userId) =
      w.db.alerts.rows.filter fun r => r.userId ≠ self.userId := by
  have hnew : (c.newRows w).filter (fun r => r.userId ≠ self.userId) = [] := by
    rw [List.filter_eq_nil_iff]
    intro r hr hne
    exact of_decide_eq_true hne (newRows_own hc hr)
  rw [exec_alerts_rows, List.filter_append, hnew, List.append_nil]
  generalize w.db.alerts.rows = rows
  induction rows with
  | nil => rfl
  | cons r rs ih =>
      by_cases hr : r.userId = self.userId
      · simpa [hr] using ih
      · simpa [hr, apply_foreign hc hr] using ih

theorem foreign_users_exec (hline : commandWord line ≠ ascii "REGISTER")
    (hc : SessionCall self line c) (w : World) :
    (exec c w).2.db.users.rows.filter (fun r => r.id ≠ self.userId) =
      w.db.users.rows.filter fun r => r.id ≠ self.userId := by
  by_cases hwrites : c.writesUsers
  · cases c with
    | registerUser => exact absurd hc.1 hline
    | setEmail uid e =>
        obtain ⟨-, -, rfl⟩ := hc
        change (w.db.setEmail .none self.userId e).2.users.rows.filter _ = _
        rw [AlertDB.setEmail_none, AlertDB.updateUser_rows]
        generalize w.db.users.rows = rows
        induction rows with
        | nil => rfl
        | cons r rs ih =>
            by_cases hr : r.id = self.userId
            · simpa [hr] using ih
            · simpa [hr] using ih
    | _ => exact hwrites.elim
  · rw [exec_users_of_not_writes hwrites]

end

/-! ## REGISTER and SET_EMAIL -/

theorem registerUser_effect (db : AlertDB) (u p e : Bytes) :
    RegisterEffect db.users.rows (db.registerUser .none u p e).2.users.rows := by
  have hout := db.registerUser_outcome u p e
  generalize db.registerUser .none u p e = out at hout
  cases hout with
  | taken => exact .refused
  | @completed r hr hu hp hid =>
      rw [AlertDB.updateUser_rows]
      exact .filled hr hp _ _
  | inserted hu => exact .added _

theorem register_effect (self : Session) {line : Bytes}
    (h : commandWord line = ascii "REGISTER") (w : World) :
    RegisterEffect w.db.users.rows (run exec (dispatch self line) w).2.db.users.rows := by
  rw [dispatch_register h]
  by_cases htokens : ∃ word u p e rest, splitLine line = word :: u :: p :: e :: rest
  · obtain ⟨word, u, p, e, rest, htokens⟩ := htokens
    rw [run_handleRegister self htokens]
    exact registerUser_effect w.db u p e
  · unfold handleRegister
    split
    · rename_i word u p e rest h'
      exact absurd ⟨word, u, p, e, rest, h'⟩ htokens
    · exact .refused

/-- SET_EMAIL writes only after the session's own name and the password were
checked. -/
theorem setEmail_effect (self : Session) {line : Bytes}
    (h : commandWord line = ascii "SET_EMAIL") (w : World) :
    (run exec (dispatch self line) w).2.db = w.db ∨
      ∃ word p e rest, 0 ≤ self.userId ∧
        splitLine line = word :: self.username :: p :: e :: rest ∧
        w.db.verifyLogin .none self.username p = self.userId ∧
        (run exec (dispatch self line) w).2.db =
          w.db.updateUser self.userId id fun _ => cstr e := by
  rw [dispatch_setEmail h]
  by_cases hrun : 0 ≤ self.userId ∧ ∃ word p e rest,
      splitLine line = word :: self.username :: p :: e :: rest
  · obtain ⟨hself, word, p, e, rest, htokens⟩ := hrun
    rw [run_handleSetEmail hself htokens]
    split
    · rename_i hverify
      exact .inr ⟨word, p, e, rest, hself, htokens, hverify, rfl⟩
    · exact .inl rfl
  · -- refused before any call
    unfold handleSetEmail
    split
    · exact .inl rfl
    · rename_i hself
      split
      · rename_i word u p e rest htokens
        split
        · exact .inl rfl
        · rename_i hname
          obtain rfl : u = self.username := not_not.mp hname
          exact absurd ⟨not_lt.mp hself, word, p, e, rest, htokens⟩ hrun
      · exact .inl rfl

/-- The frame holds of every session, every line and every state of the server. -/
theorem command_frame (self : Session) (line : Bytes) (w : World) :
    CommandFrame self line w.db (run exec (dispatch self line) w).2.db where
  alerts_of_no_login hself := by
    refine (dispatch_run self line (fun w' : World => w'.db.alerts = w.db.alerts)
      (fun c w' hc hw' => ?_) rfl).1
    rw [alerts_of_no_login hself hc, hw']
  users_of_no_login hself hline := by
    refine (dispatch_run self line (fun w' : World => w'.db.users = w.db.users)
      (fun c w' hc hw' => ?_) rfl).1
    rw [users_of_no_login hself hline hc, hw']
  register hline := register_effect self hline w
  foreign_alerts _ := by
    refine (dispatch_run self line (fun w' : World =>
      w'.db.alerts.rows.filter (fun r => r.userId ≠ self.userId) =
        w.db.alerts.rows.filter fun r => r.userId ≠ self.userId)
      (fun c w' hc hw' => ?_) rfl).1
    rw [foreign_alerts_exec hc, hw']
  foreign_users _ hline := by
    refine (dispatch_run self line (fun w' : World =>
      w'.db.users.rows.filter (fun r => r.id ≠ self.userId) =
        w.db.users.rows.filter fun r => r.id ≠ self.userId)
      (fun c w' hc hw' => ?_) rfl).1
    rw [foreign_users_exec hline hc, hw']
  email hline r hr r' hr' hid hchanged := by
    rcases setEmail_effect self hline w with hsame | ⟨word, p, e, rest, hself, htokens,
      hverify, hdb⟩
    · rw [hsame] at hr'
      exact absurd (congrArg UserRow.email (w.db.users.eq_of_key hr' hr hid)) hchanged
    · rw [hdb] at hr'
      obtain ⟨r₀, hr₀, rfl⟩ := AlertDB.exists_of_mem_updateUser _ hr'
      -- the changed row is the one whose password was checked
      have hown : r₀.id = self.userId := by
        by_contra hne
        rw [if_neg hne] at hid hchanged
        exact hchanged (congrArg UserRow.email (w.db.users.eq_of_key hr₀ hr hid))
      rw [if_pos hown] at hid
      obtain ⟨r₁, hr₁, hname, hpassword, hr₁id⟩ :=
        w.db.exists_of_verifyLogin (u := self.username) (p := p) (by omega)
      obtain rfl := w.db.users.eq_of_key hr₁ hr
        (hr₁id.trans (hverify.trans (hown.symm.trans hid)))
      exact ⟨hr₁id.trans hverify, word, self.username, p, e, rest, htokens, hname.symm,
        hpassword.symm⟩

end CloudAlert
