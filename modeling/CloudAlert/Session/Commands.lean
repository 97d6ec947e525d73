import CloudAlert.Program.Linearization
import CloudAlert.Server.Contracts
import CloudAlert.Server.Rows

/-!
# Commands as transactions

A command other than GET_PRICES is a `Transaction`: it makes no database call at
all, or one call that decides its reply and everything it writes, or it is
SET_EMAIL, which checks the password in a call of its own before it writes. What
follows the deciding call is settled: it refreshes the cache, subscribes the
contract or enters the online map, and touches no table.
-/

namespace CloudAlert

open Program

/-- Calls that leave the tables alone and whose answers decide no reply. -/
def SilentCall : Call → Prop
  | .getPendingContracts | .getPendingPriceAlerts _ | .swapCache _ => True
  | .registerSocket _ _ | .unregisterSocket _ _ | .subscribe _ => True
  | _ => False

theorem silent_db {c : Call} (h : SilentCall c) (w : World) :
    (exec c w).2.db = w.db := by
  cases c with
  | unregisterSocket uid sock =>
      simp only [exec, execWith]
      split <;> rfl
  | subscribe c =>
      simp only [exec, execWith]
      split <;> rfl
  | _ => first | rfl | exact h.elim

/-- The calls that decide the reply to a line. -/
def DecidingCall (line : Bytes) : Call → Prop
  | .verifyLogin _ _ => commandWord line = ascii "LOGIN"
  | .registerUser _ _ _ | .getEmail _ => True
  | .addPriceAlert _ _ _ _ | .addTimeAlert _ _ _ => True
  | .deleteAlert _ _ | .modifyPriceAlert _ _ _ _ _ | .modifyTimeAlert _ _ _ _ => True
  | .queryAlerts _ _ => True
  | _ => False

/-- The rest of a handler is settled. -/
def Decided (p : Handler) : Prop := ∃ out, p.Settled SilentCall out

/-- The forms a handler takes. -/
inductive Transaction (self : Session) (line : Bytes) : Handler → Prop where
  | done (out : Session × Reply) : Transaction self line (.ret out)
  | call {c : Call} {k : c.Ans → Handler} (hdecides : DecidingCall line c)
      (hk : ∀ r, Decided (k r)) : Transaction self line (.call c k)
  | check {p e : Bytes} {k : ℤ → Handler} {no : Session × Reply} {k' : Bool → Handler}
      (hword : commandWord line = ascii "SET_EMAIL") (hself : 0 ≤ self.userId)
      (hp : p ≠ []) (hno : ∀ uid, uid ≠ self.userId → k uid = .ret no)
      (hyes : k self.userId = .call (.setEmail self.userId e) k')
      (hk : ∀ ok, Decided (k' ok)) :
      Transaction self line (.call (.verifyLogin self.username p) k)

theorem decided_ret (out : Session × Reply) : Decided (.ret out) := ⟨out, settled_ret⟩

/-- The refresh of the cache is silent. -/
theorem settled_refresh {k : Unit → Handler} {out : Session × Reply}
    (hk : (k ()).Settled SilentCall out) :
    (refreshPriceAlertCache >>= k).Settled SilentCall out :=
  Settled.bind (refresh_calls trivial (fun _ => trivial) fun _ => trivial) fun _ => hk

theorem decided_refresh {k : Unit → Handler} (hk : Decided (k ())) :
    Decided (refreshPriceAlertCache >>= k) := by
  obtain ⟨out, hk⟩ := hk
  exact ⟨out, settled_refresh hk⟩

theorem decided_subscribe {c : Bytes} {k : Unit → Handler} (hk : Decided (k ())) :
    Decided (ask (.subscribe c) >>= k) := by
  obtain ⟨out, hk⟩ := hk
  exact ⟨out, settled_call trivial fun _ => hk⟩

theorem decided_ite {b : Prop} [Decidable b] {p q : Handler} (hp : Decided p)
    (hq : Decided q) : Decided (if b then p else q) := by
  split
  · exact hp
  · exact hq

section

variable (self : Session) (line : Bytes)

theorem handleRegister_transaction :
    Transaction self line (handleRegister self line) := by
  unfold handleRegister
  split
  · split
    · exact .done _
    · exact .call (c := .registerUser _ _ _) trivial fun _ =>
        decided_ite (decided_ret _) (decided_ret _)
  · exact .done _

theorem handleLogin_transaction (h : commandWord line = ascii "LOGIN") :
    Transaction self line (handleLogin self line) := by
  unfold handleLogin
  split
  · refine .call (c := .verifyLogin _ _) h fun _ => decided_ite (decided_ret _) ?_
    exact ⟨_, settled_call trivial fun _ => settled_ret⟩
  · exact .done _

theorem handleAddPrice_transaction :
    Transaction self line (handleAddPrice self line) := by
  unfold handleAddPrice
  split
  · exact .done _
  · split
    · split
      · exact .done _
      · exact .call (c := .addPriceAlert _ _ _ _) trivial fun _ =>
          decided_ite (decided_ret _)
            (decided_refresh (decided_subscribe (decided_ret _)))
    · exact .done _

theorem handleAddTime_transaction : Transaction self line (handleAddTime self line) := by
  unfold handleAddTime
  split
  · exact .done _
  · split
    · exact .call (c := .addTimeAlert _ _ _) trivial fun _ =>
        decided_ite (decided_ret _) (decided_subscribe (decided_ret _))
    · exact .done _

theorem handleDelete_transaction : Transaction self line (handleDelete self line) := by
  unfold handleDelete
  split
  · exact .done _
  · split
    · exact .call (c := .deleteAlert _ _) trivial fun _ =>
        decided_ite (decided_refresh (decided_ret _)) (decided_ret _)
    · exact .done _

theorem handleModifyPrice_transaction :
    Transaction self line (handleModifyPrice self line) := by
  unfold handleModifyPrice
  split
  · exact .done _
  · split
    · split
      · exact .done _
      · exact .call (c := .modifyPriceAlert _ _ _ _ _) trivial fun _ =>
          decided_ite (decided_refresh (decided_subscribe (decided_ret _)))
            (decided_ret _)
    · exact .done _

theorem handleModifyTime_transaction :
    Transaction self line (handleModifyTime self line) := by
  unfold handleModifyTime
  split
  · exact .done _
  · split
    · exact .call (c := .modifyTimeAlert _ _ _ _) trivial fun _ =>
        decided_ite (decided_refresh (decided_ret _)) (decided_ret _)
    · exact .done _

theorem handleQuery_transaction : Transaction self line (handleQuery self line) := by
  unfold handleQuery
  split
  · exact .done _
  · split
    · exact .call (c := .queryAlerts _ _) trivial fun _ => decided_ret _
    · exact .done _

theorem handleSetEmail_transaction (h : commandWord line = ascii "SET_EMAIL") :
    Transaction self line (handleSetEmail self line) := by
  unfold handleSetEmail
  split
  · exact .done _
  · rename_i hself
    split
    · rename_i username p e _ htokens
      split
      · exact .done _
      · rename_i hname
        obtain rfl : username = self.username := not_not.mp hname
        have hp : p ∈ splitLine line := by simp [htokens]
        exact .check h (not_lt.mp hself) (ne_nil_of_mem_splitLine hp)
          (fun uid huid => if_pos huid) (if_neg fun h => h rfl)
          fun _ => decided_ite (decided_ret _) (decided_ret _)
    · exact .done _

theorem handleGetEmail_transaction :
    Transaction self line (handleGetEmail self line) := by
  unfold handleGetEmail
  split
  · exact .done _
  · split
    · split
      · exact .done _
      · exact .call (c := .getEmail _) trivial fun _ => decided_ret _
    · exact .done _

/-- Every command but GET_PRICES is a transaction. -/
theorem dispatch_transaction (h : commandWord line ≠ ascii "GET_PRICE")
    (h' : commandWord line ≠ ascii "GET_PRICES") :
    Transaction self line (dispatch self line) :=
  dispatch_rule self line (fun _ => handleRegister_transaction self line)
    (handleLogin_transaction self line)
    (fun _ => handleAddPrice_transaction self line)
    (fun _ => handleAddTime_transaction self line)
    (fun _ => handleDelete_transaction self line)
    (fun _ => handleModifyPrice_transaction self line)
    (fun _ => handleModifyTime_transaction self line)
    (fun _ => handleQuery_transaction self line)
    (handleSetEmail_transaction self line)
    (fun _ => handleGetEmail_transaction self line)
    (fun hprices => absurd hprices (not_or.mpr ⟨h, h'⟩)) (.done _)

end

theorem run_settled {p : Handler} {out : Session × Reply} (hp : p.Settled SilentCall out)
    (w : World) : (run exec p w).1 = out ∧ (run exec p w).2.db = w.db :=
  have hview : ∀ (o : Call) (w : World), SilentCall o → (exec o w).2.db = w.db :=
    fun _ w hc => silent_db hc w
  hp.run hview w

theorem run_ask_settled {c : Call} {k : c.Ans → Handler}
    {out : Session × Reply} {w : World} (hk : (k (exec c w).1).Settled SilentCall out) :
    (run exec (ask c >>= k) w).1 = out ∧ (run exec (ask c >>= k) w).2.db =
    (exec c w).2.db :=
  run_settled hk (exec c w).2

theorem run_check {self : Session} {p e : Bytes} {k : ℤ → Handler} {no : Session × Reply}
    {k' : Bool → Handler} (hno : ∀ uid, uid ≠ self.userId → k uid = .ret no)
    (hyes : k self.userId = .call (.setEmail self.userId e) k') (w : World) :
    run exec (.call (.verifyLogin self.username p) k) w =
      if w.db.verifyLogin .none self.username p = self.userId then
        run exec (k' true) { w with db := w.db.updateUser self.userId id fun _ => cstr e }
      else (no, w) := by
  change run exec (k (w.db.verifyLogin .none self.username p)) w = _
  split
  · rename_i hverify
    rw [hverify, hyes]
    change run exec (k' (w.db.setEmail .none self.userId e).1)
      { w with db := (w.db.setEmail .none self.userId e).2 } = _
    rw [AlertDB.setEmail_none]
  · rename_i hverify
    rw [hno _ hverify]
    rfl

/-! ## Runs of single commands -/

section

variable {self : Session} {line : Bytes}

theorem dispatch_login (h : commandWord line = ascii "LOGIN") :
    dispatch self line = handleLogin self line := by
  unfold dispatch
  rw [h]
  rfl

theorem dispatch_register (h : commandWord line = ascii "REGISTER") :
    dispatch self line = handleRegister self line := by
  unfold dispatch
  rw [h]
  rfl

theorem dispatch_setEmail (h : commandWord line = ascii "SET_EMAIL") :
    dispatch self line = handleSetEmail self line := by
  unfold dispatch
  rw [h]
  rfl

theorem dispatch_addPrice (h : commandWord line = ascii "ADD_PRICE") :
    dispatch self line = handleAddPrice self line := by
  unfold dispatch
  rw [h]
  rfl

theorem dispatch_addTime (h : commandWord line = ascii "ADD_TIME") :
    dispatch self line = handleAddTime self line := by
  unfold dispatch
  rw [h]
  rfl

theorem dispatch_delete (h : commandWord line = ascii "DELETE") :
    dispatch self line = handleDelete self line := by
  unfold dispatch
  rw [h]
  rfl

theorem dispatch_modifyPrice (h : commandWord line = ascii "MODIFY_PRICE") :
    dispatch self line = handleModifyPrice self line := by
  unfold dispatch
  rw [h]
  rfl

theorem dispatch_modifyTime (h : commandWord line = ascii "MODIFY_TIME") :
    dispatch self line = handleModifyTime self line := by
  unfold dispatch
  rw [h]
  rfl

/-- The world after `Notifier::RegisterUser`. -/
def World.online (w : World) (uid : ℤ) (sock : Socket) : World :=
  { w with userSockets := Function.update w.userSockets uid (some sock) }

theorem run_handleLogin {word u p : Bytes} {rest : List Bytes}
    (htokens : splitLine line = word :: u :: p :: rest) (w : World) :
    run exec (handleLogin self line) w =
      if w.db.verifyLogin .none u p < 0 then
        ((self, ⟨[ascii "ERR wrong username or password"], false⟩), w)
      else
        (({ self with userId := w.db.verifyLogin .none u p, username := u },
          ⟨[ascii "OK"], false⟩), w.online (w.db.verifyLogin .none u p) self.sock) := by
  unfold handleLogin
  rw [htokens]
  change run exec (if w.db.verifyLogin .none u p < 0 then
    self.say "ERR wrong username or password" else _) w = _
  split <;> rfl

/-- The arguments of REGISTER are tokens, so none is empty. -/
theorem arguments_ne_nil {word u p e : Bytes} {rest : List Bytes}
    (htokens : splitLine line = word :: u :: p :: e :: rest) :
    u ≠ [] ∧ p ≠ [] ∧ e ≠ [] := by
  have hne : ∀ tok ∈ [u, p, e], tok ≠ [] := by
    intro tok htok
    have hmem : tok ∈ splitLine line :=
      htokens ▸ List.mem_cons_of_mem word (List.mem_append_left rest htok)
    exact ne_nil_of_mem_splitLine hmem
  simpa using hne

theorem run_handleRegister (self : Session) {word u p e : Bytes} {rest : List Bytes}
    (htokens : splitLine line = word :: u :: p :: e :: rest) (w : World) :
    run exec (handleRegister self line) w =
      ((self, ⟨[if (w.db.registerUser .none u p e).1 < 0 then
          ascii "ERR username already taken" else ascii "OK"], false⟩),
        { w with db := (w.db.registerUser .none u p e).2 }) := by
  have hnot : ¬ (u = [] ∨ p = [] ∨ e = []) := by simpa using arguments_ne_nil htokens
  unfold handleRegister
  rw [htokens]
  simp only [if_neg hnot]
  change run exec (if (w.db.registerUser .none u p e).1 < 0 then
    self.say "ERR username already taken" else self.say "OK") _ = _
  split <;> rfl

theorem run_handleSetEmail {word p e : Bytes} {rest : List Bytes}
    (hself : 0 ≤ self.userId)
    (htokens : splitLine line = word :: self.username :: p :: e :: rest) (w : World) :
    run exec (handleSetEmail self line) w =
      if w.db.verifyLogin .none self.username p = self.userId then
        ((self, ⟨[ascii "OK"], false⟩),
          { w with db := w.db.updateUser self.userId id fun _ => cstr e })
      else ((self, ⟨[ascii "ERR wrong username or password"], false⟩), w) := by
  unfold handleSetEmail
  rw [if_neg (not_lt.mpr hself), htokens]
  simp only [ne_eq, not_true_eq_false, ↓reduceIte]
  change run exec (if w.db.verifyLogin .none self.username p ≠ self.userId then
    self.say "ERR wrong username or password" else _) w = _
  by_cases hverify : w.db.verifyLogin .none self.username p = self.userId
  · rw [if_neg (not_not.mpr hverify), if_pos hverify]
    change run exec (if (w.db.setEmail .none self.userId e).1 = true then
      self.say "OK" else self.say "ERR Failed to set email")
      { w with db := (w.db.setEmail .none self.userId e).2 } = _
    rw [AlertDB.setEmail_none]
    rfl
  · rw [if_pos hverify, if_neg hverify]
    rfl

end

end CloudAlert
