import CloudAlert.Session.Login

/-!
# What replies reveal

`AgreeOn u` relates two databases that have the same users row of `u` and the
same alerts of `u`, and may differ in everything else. A session of `u` gets the
same replies from both, and leaves them in agreement: each deciding call of its
commands reads and writes rows of `u` only (`own_call`), SET_EMAIL included,
whose lookup by name finds the row of `u` because the session is logged in.
-/

namespace CloudAlert

open Program

/-- The databases have the same users row and the same alerts of user `u`. -/
structure AgreeOn (u : ℤ) (db db' : AlertDB) : Prop where
  users : ∀ r, r.id = u → (r ∈ db.users.rows ↔ r ∈ db'.users.rows)
  alerts : ∀ r, r.userId = u → (r ∈ db.alerts.rows ↔ r ∈ db'.alerts.rows)

/-- The commands that read or change the rows of the session's user. -/
def ownWords : List Bytes :=
  [ascii "QUERY", ascii "GET_EMAIL", ascii "SET_EMAIL", ascii "DELETE",
    ascii "MODIFY_PRICE", ascii "MODIFY_TIME"]

variable {self : Session} {line : Bytes}

/-! ## Reading -/

section

variable {db db' : AlertDB} (h : AgreeOn self.userId db db')
include h

/-- The lookup by the session's name finds the row of the session's user. -/
theorem AgreeOn.verifyLogin (hself : LoggedIn db self) (p : Bytes) :
    db.verifyLogin .none self.username p = db'.verifyLogin .none self.username p := by
  obtain ⟨r, hr, hid, hname, -⟩ := hself
  rw [db.verifyLogin_of_mem hr hname,
    db'.verifyLogin_of_mem ((h.users r hid).mp hr) hname]

theorem AgreeOn.getEmail :
    db.getEmail .none self.userId = db'.getEmail .none self.userId := by
  have hrows : db.users.select (fun r => r.id = self.userId) =
      db'.users.select fun r => r.id = self.userId := by
    refine Table.select_eq_of_mem_iff fun r => ?_
    rw [Table.mem_select, Table.mem_select, decide_eq_true_iff]
    exact and_congr_left (h.users r)
  unfold AlertDB.getEmail
  rw [hrows]

theorem AgreeOn.queryAlerts (status : ℤ) :
    db.queryAlerts .none self.userId status =
    db'.queryAlerts .none self.userId status := by
  have hrows : ∀ p : AlertRecord → Bool, (∀ r, p r → r.userId = self.userId) →
      db.alerts.select p = db'.alerts.select p := by
    intro p hp
    refine Table.select_eq_of_mem_iff fun r => ?_
    rw [Table.mem_select, Table.mem_select]
    exact and_congr_left fun hr => h.alerts r (hp r hr)
  unfold AlertDB.queryAlerts
  split
  · rw [hrows _ fun r hr => of_decide_eq_true hr]
  · rw [hrows _ fun r hr => (of_decide_eq_true hr).1]

end

/-! ## Writing -/

/-- A call that adds no row keeps agreement on the alerts. -/
theorem AgreeOn.alerts_after {u : ℤ} {w w' : World} (h : AgreeOn u w.db w'.db) {c : Call}
    (hnew : c.newRows w = []) (hnew' : c.newRows w' = []) (r : AlertRecord)
    (hr : r.userId = u) :
    r ∈ (exec c w).2.db.alerts.rows ↔ r ∈ (exec c w').2.db.alerts.rows := by
  rw [exec_alerts_rows, exec_alerts_rows, hnew, hnew', List.append_nil, List.append_nil,
    List.mem_map, List.mem_map]
  refine exists_congr fun r₀ => and_congr_left fun hr₀ => h.alerts r₀ ?_
  rw [← apply_userId c r₀, hr₀, hr]

theorem AgreeOn.setEmail {u : ℤ} {db db' : AlertDB} (h : AgreeOn u db db')
    (e : Text → Text) : AgreeOn u (db.updateUser u id e) (db'.updateUser u id e) where
  users r hr := by
    rw [AlertDB.updateUser_rows, AlertDB.updateUser_rows, List.mem_map, List.mem_map]
    refine exists_congr fun r₀ => and_congr_left fun hr₀ => h.users r₀ ?_
    rw [← hr, ← hr₀]
    split <;> rfl
  alerts := h.alerts

/-- An UPDATE under the owner's guard finds a row in both databases or in none. -/
theorem AgreeOn.update_found {u : ℤ} {w w' : World} (h : AgreeOn u w.db w'.db) (id : ℤ) :
    (∃ r ∈ w.db.alerts.rows, r.id = id ∧ r.userId = u ∧ r.status ≠ 2) ↔
      ∃ r ∈ w'.db.alerts.rows, r.id = id ∧ r.userId = u ∧ r.status ≠ 2 :=
  exists_congr fun r => and_congr_left fun hr => h.alerts r hr.2.1

/-- The deciding calls of the user's own commands are answered alike and keep
agreement. -/
theorem own_call {c : Call} (hdecides : DecidingCall line c)
    (hc : SessionCall self line c) (hline : commandWord line ∈ ownWords) {w w' : World}
    (h : AgreeOn self.userId w.db w'.db) (hself : LoggedIn w.db self) :
    (exec c w).1 = (exec c w').1 ∧
      AgreeOn self.userId (exec c w).2.db (exec c w').2.db := by
  cases c with
  | registerUser => rw [hc.1] at hline; exact absurd hline (by decide)
  | addPriceAlert => rw [hc.1] at hline; exact absurd hline (by decide)
  | addTimeAlert => rw [hc.1] at hline; exact absurd hline (by decide)
  | verifyLogin u p =>
      rcases hc with hlogin | rfl
      · rw [hlogin] at hline
        exact absurd hline (by decide)
      · exact ⟨h.verifyLogin hself p, h⟩
  | getEmail uid =>
      obtain rfl := hc.2
      exact ⟨h.getEmail, h⟩
  | queryAlerts uid status =>
      obtain rfl := hc.2
      exact ⟨h.queryAlerts status, h⟩
  | deleteAlert id uid =>
      obtain rfl := hc.2.2
      refine ⟨?_, h.users, fun r hr => h.alerts_after rfl rfl r hr⟩
      rw [Bool.eq_iff_iff, deleteAlert_true, deleteAlert_true]
      exact h.update_found id
  | modifyPriceAlert id uid c p cond =>
      obtain rfl := hc.2.2.1
      refine ⟨?_, h.users, fun r hr => h.alerts_after rfl rfl r hr⟩
      rw [Bool.eq_iff_iff, modifyPriceAlert_true, modifyPriceAlert_true]
      exact h.update_found id
  | modifyTimeAlert id uid c t =>
      obtain rfl := hc.2.2
      refine ⟨?_, h.users, fun r hr => h.alerts_after rfl rfl r hr⟩
      rw [Bool.eq_iff_iff, modifyTimeAlert_true, modifyTimeAlert_true]
      exact h.update_found id
  | _ => exact hdecides.elim

/-! ## Commands -/

theorem own_transaction {p : Handler} (ht : Transaction self line p)
    (hok : HandlerOk self line p) (hline : commandWord line ∈ ownWords) {w w' : World}
    (h : AgreeOn self.userId w.db w'.db) (hself : LoggedIn w.db self) :
    (run exec p w).1 = (run exec p w').1 ∧
      AgreeOn self.userId (run exec p w).2.db (run exec p w').2.db := by
  have hsettled : ∀ {q : Handler} {v v' : World}, Decided q →
      AgreeOn self.userId v.db v'.db → (run exec q v).1 = (run exec q v').1 ∧
        AgreeOn self.userId (run exec q v).2.db (run exec q v').2.db := by
    rintro q v v' ⟨out, hout⟩ hagree
    obtain ⟨hv, hvdb⟩ := hout.run (fun c s hc => silent_db hc s) v
    obtain ⟨hv', hvdb'⟩ := hout.run (fun c s hc => silent_db hc s) v'
    rw [hv, hv', hvdb, hvdb']
    exact ⟨rfl, hagree⟩
  cases ht with
  | done out => exact ⟨rfl, h⟩
  | call hdecides hk =>
      obtain ⟨hanswer, hagree⟩ := own_call hdecides hok.1 hline h hself
      rw [run_call, run_call, ← hanswer]
      exact hsettled (hk _) hagree
  | @check p e k no k' hword hlogged hp hno hyes hk =>
      rw [run_check hno hyes, run_check hno hyes, ← h.verifyLogin hself]
      split
      · have hagree := h.setEmail fun _ => cstr e
        exact hsettled (hk true) hagree
      · exact ⟨rfl, h⟩

/-- The same calls and the same reply. -/
abbrev SameReply : Handler → Handler → Prop := Alike fun out out' => out.2 = out'.2

section

variable (sock sock' : Socket) (u : ℤ) (n line : Bytes)

theorem handleDelete_alike : SameReply (handleDelete ⟨sock, u, n⟩ line)
    (handleDelete ⟨sock', u, n⟩ line) := by
  unfold handleDelete
  refine alike_ite (fun _ => .ret rfl) fun _ => ?_
  split
  · refine .call _ fun ok => alike_ite (fun _ => ?_) fun _ => .ret rfl
    exact Alike.bind _ fun _ => .ret rfl
  · exact .ret rfl

theorem handleModifyPrice_alike : SameReply (handleModifyPrice ⟨sock, u, n⟩ line)
    (handleModifyPrice ⟨sock', u, n⟩ line) := by
  unfold handleModifyPrice
  refine alike_ite (fun _ => .ret rfl) fun _ => ?_
  split
  · refine alike_ite (fun _ => .ret rfl) fun _ => .call _ fun ok => ?_
    refine alike_ite (fun _ => ?_) fun _ => .ret rfl
    exact Alike.bind _ fun _ => .call _ fun _ => .ret rfl
  · exact .ret rfl

theorem handleModifyTime_alike : SameReply (handleModifyTime ⟨sock, u, n⟩ line)
    (handleModifyTime ⟨sock', u, n⟩ line) := by
  unfold handleModifyTime
  refine alike_ite (fun _ => .ret rfl) fun _ => ?_
  split
  · refine .call _ fun ok => alike_ite (fun _ => ?_) fun _ => .ret rfl
    exact Alike.bind _ fun _ => .ret rfl
  · exact .ret rfl

theorem handleQuery_alike : SameReply (handleQuery ⟨sock, u, n⟩ line)
    (handleQuery ⟨sock', u, n⟩ line) := by
  unfold handleQuery
  refine alike_ite (fun _ => .ret rfl) fun _ => ?_
  split
  · exact .call _ fun records => .ret rfl
  · exact .ret rfl

theorem handleSetEmail_alike : SameReply (handleSetEmail ⟨sock, u, n⟩ line)
    (handleSetEmail ⟨sock', u, n⟩ line) := by
  unfold handleSetEmail
  refine alike_ite (fun _ => .ret rfl) fun _ => ?_
  split
  · refine alike_ite (fun _ => .ret rfl) fun _ => .call _ fun uid => ?_
    refine alike_ite (fun _ => .ret rfl) fun _ => .call _ fun ok => ?_
    exact alike_ite (fun _ => .ret rfl) fun _ => .ret rfl
  · exact .ret rfl

theorem handleGetEmail_alike : SameReply (handleGetEmail ⟨sock, u, n⟩ line)
    (handleGetEmail ⟨sock', u, n⟩ line) := by
  unfold handleGetEmail
  refine alike_ite (fun _ => .ret rfl) fun _ => ?_
  split
  · exact alike_ite (fun _ => .ret rfl) fun _ => .call _ fun email => .ret rfl
  · exact .ret rfl

/-- Sessions that differ in their socket only run the same code for these
commands. -/
theorem dispatch_alike (hline : commandWord line ∈ ownWords) :
    SameReply (dispatch ⟨sock, u, n⟩ line) (dispatch ⟨sock', u, n⟩ line) := by
  have hother : ∀ {word : Bytes} {p p' : Handler}, word ∉ ownWords →
      commandWord line = word → SameReply p p' :=
    fun hword h => absurd (h ▸ hline) hword
  unfold dispatch
  refine alike_ite (hother (by decide)) fun _ => ?_
  refine alike_ite (hother (by decide)) fun _ => ?_
  refine alike_ite (hother (by decide)) fun _ => ?_
  refine alike_ite (hother (by decide)) fun _ => ?_
  refine alike_ite (fun _ => handleDelete_alike sock sock' u n line) fun _ => ?_
  refine alike_ite (fun _ => handleModifyPrice_alike sock sock' u n line) fun _ => ?_
  refine alike_ite (fun _ => handleModifyTime_alike sock sock' u n line) fun _ => ?_
  refine alike_ite (fun _ => handleQuery_alike sock sock' u n line) fun _ => ?_
  refine alike_ite (fun _ => handleSetEmail_alike sock sock' u n line) fun _ => ?_
  refine alike_ite (fun _ => handleGetEmail_alike sock sock' u n line) fun _ => ?_
  refine alike_ite (hother (by decide)) fun _ => ?_
  exact alike_ite (hother (by decide)) fun _ => .ret rfl

end

/-- A reachable server and one that agrees with it on a user's rows give that
user's sessions the same replies to these commands, and agree again afterwards. -/
theorem replies_reveal_own_rows_only {s s' : Server} (hs : Reachable s)
    {sock sock' : Socket} {self self' : Session}
    (hself : s.sessions sock = some self) (hself' : s'.sessions sock' = some self')
    (hlogged : 0 ≤ self.userId) (huser : self'.userId = self.userId)
    (hname : self'.username = self.username)
    (hagree : AgreeOn self.userId s.world.db s'.world.db)
    (hline : commandWord line ∈ ownWords) :
    s.reply exec sock line = s'.reply exec sock' line ∧
      AgreeOn self.userId (run exec (dispatch self line) s.world).2.db
        (run exec (dispatch self' line) s'.world).2.db := by
  have hword : commandWord line ≠ ascii "GET_PRICE" ∧
      commandWord line ≠ ascii "GET_PRICES" := by
    constructor
    · intro h
      exact absurd (h ▸ hline) (by decide)
    · intro h
      exact absurd (h ▸ hline) (by decide)
  obtain ⟨hreply, hagree'⟩ := own_transaction
    (dispatch_transaction self line hword.1 hword.2) (dispatch_ok self line) hline hagree
    (hs.sessionsOk sock self hself hlogged)
  obtain ⟨sock₁, u, n⟩ := self'
  obtain rfl : u = self.userId := huser
  obtain rfl : n = self.username := hname
  obtain ⟨halike, hworld⟩ := (dispatch_alike self.sock sock₁ self.userId
    self.username line hline).run exec s'.world
  refine ⟨?_, hworld ▸ hagree'⟩
  rw [Server.reply, Server.reply, hself, hself', Option.map_some, Option.map_some, hreply]
  exact congrArg some halike

/-- A history in which one user logs in, and one that goes on with another user
who adds an alert. -/
def annAlone : List Event :=
  [.startUp true, .connect 7, .line 7 (ascii "REGISTER ann pw a@b"),
    .line 7 (ascii "LOGIN ann pw")]

def annAndBob : List Event :=
  annAlone ++ [.connect 8, .line 8 (ascii "REGISTER bob pw b@b"),
    .line 8 (ascii "LOGIN bob pw"), .line 8 (ascii "ADD_TIME bob rb2510 09:00:00")]

set_option maxRecDepth 10000 in
/-- The reply to a DELETE does not tell whether the id is one of another user. -/
theorem foreign_alert_is_not_revealed :
    ∃ s s', serveAll exec (.off .created fun _ => ⟨2025, 6, 0, 8, 55, 0⟩) annAlone =
        some s ∧
      serveAll exec (.off .created fun _ => ⟨2025, 6, 0, 8, 55, 0⟩) annAndBob =
        some s' ∧
      s'.world.db.alerts.rows.length = 1 ∧
      s.reply exec 7 (ascii "DELETE 1") = s'.reply exec 7 (ascii "DELETE 1") := by
  let ann : UserRow := ⟨1, cstr (ascii "ann"), cstr (ascii "pw"), cstr (ascii "a@b")⟩
  let bob : UserRow := ⟨2, cstr (ascii "bob"), cstr (ascii "pw"), cstr (ascii "b@b")⟩
  have hstate : (serveAll exec (.off .created fun _ => ⟨2025, 6, 0, 8, 55, 0⟩)
      annAlone).map (fun s => (s.sessions 7, s.world.db.users.rows,
        s.world.db.alerts.rows)) = some (some ⟨7, 1, ascii "ann"⟩, [ann], []) := by
    decide +kernel
  have hstate' : (serveAll exec (.off .created fun _ => ⟨2025, 6, 0, 8, 55, 0⟩)
      annAndBob).map (fun s => (s.sessions 7, s.world.db.users.rows,
        s.world.db.alerts.rows.map AlertRecord.userId)) =
          some (some ⟨7, 1, ascii "ann"⟩, [ann, bob], [2]) := by
    decide +kernel
  obtain ⟨s, hs, hview⟩ := Option.map_eq_some_iff.mp hstate
  obtain ⟨s', hs', hview'⟩ := Option.map_eq_some_iff.mp hstate'
  simp only [Prod.mk.injEq] at hview hview'
  obtain ⟨hself, husers, halerts⟩ := hview
  obtain ⟨hself', husers', halerts'⟩ := hview'
  have hagree : AgreeOn 1 s.world.db s'.world.db := by
    constructor
    · intro r hr
      have hbob : r ≠ bob := by
        rintro rfl
        exact absurd hr (by decide)
      simp [husers, husers', hbob]
    · intro r hr
      have hout : r ∉ s'.world.db.alerts.rows := by
        intro hmem
        have hid := List.mem_map_of_mem (f := AlertRecord.userId) hmem
        rw [halerts', hr] at hid
        exact absurd hid (by decide)
      simp [halerts, hout]
  have hlength : s'.world.db.alerts.rows.length = 1 := by
    simpa using congrArg List.length halerts'
  exact ⟨s, s', hs, hs', hlength, (replies_reveal_own_rows_only ⟨_, _, _, hs⟩ hself hself'
    (by decide) rfl rfl hagree (by decide)).1⟩

end CloudAlert
