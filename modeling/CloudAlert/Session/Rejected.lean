import CloudAlert.Server.Contracts
import CloudAlert.Server.Failures
import CloudAlert.Server.History
import CloudAlert.Text.Width

/-!
# Rejected commands

A command that is answered with an ERR line has changed nothing, whatever SQLite calls
fail meanwhile (`err_changes_nothing`). `Rejects` is the law for a piece of a handler; its
rule for a call is `rejects_ask`.
-/

namespace CloudAlert

open Program

/-- The tables, the cache of price alerts and the online map are the same. -/
structure SameState (w w' : World) : Prop where
  db : w'.db = w.db
  cache : w'.priceAlertCache = w.priceAlertCache
  online : w'.userSockets = w.userSockets

theorem SameState.refl (w : World) : SameState w w := ⟨rfl, rfl, rfl⟩

theorem SameState.trans {w w' w'' : World} (h : SameState w w') (h' : SameState w' w'') :
    SameState w w'' :=
  ⟨h'.db.trans h.db, h'.cache.trans h.cache, h'.online.trans h.online⟩

/-- A line that begins with ERR. -/
def IsErr (resp : Bytes) : Prop := ascii "ERR" <+: resp

instance (resp : Bytes) : Decidable (IsErr resp) := inferInstanceAs (Decidable (_ <+: _))

/-- The code sends no ERR line, whatever its calls are answered. -/
def NeverErr (h : Handler) : Prop :=
  h.Respects (fun _ => True) (fun _ _ => True) fun out =>
    ∀ resp ∈ out.2.lines, ¬ IsErr resp

/-- If the code sends an ERR line, it has left the state and the session as they were. -/
def Rejects (self : Session) (h : Handler) : Prop :=
  ∀ s : FaultyWorld, (∃ resp ∈ (run execFaulty h s).1.2.lines, IsErr resp) →
    (run execFaulty h s).1.1 = self ∧ SameState s.world (run execFaulty h s).2.world

section

variable {self : Session}

theorem NeverErr.lines {h : Handler} (hnever : NeverErr h) (s : FaultyWorld) :
    ∀ resp ∈ (run execFaulty h s).1.2.lines, ¬ IsErr resp :=
  (hnever.run (fun _ => True) (fun _ _ _ _ => ⟨trivial, trivial⟩) trivial).2

theorem NeverErr.rejects {h : Handler} (hnever : NeverErr h) : Rejects self h := by
  rintro s ⟨resp, hresp, herr⟩
  exact absurd herr (hnever.lines s resp hresp)

theorem rejects_sendLine (resp : Bytes) : Rejects self (self.sendLine resp) := fun s _ =>
  ⟨rfl, .refl s.world⟩

theorem rejects_ite {b : Prop} [Decidable b] {p q : Handler} (hp : Rejects self p)
    (hq : Rejects self q) : Rejects self (if b then p else q) := by
  split
  · exact hp
  · exact hq

/-- A call that decides the reply: when it is answered in `no` it has changed nothing, and
when it is not, no ERR line follows. -/
theorem rejects_ask (c : Call) (no : c.Ans → Prop) {k : c.Ans → Handler}
    (hcall : ∀ sql w, no (execWith sql c w).1 → SameState w (execWith sql c w).2)
    (hno : ∀ r, no r → Rejects self (k r)) (hyes : ∀ r, ¬ no r → NeverErr (k r)) :
    Rejects self (ask c >>= k) := by
  intro s herr
  change ∃ resp ∈ (run execFaulty (k (execFaulty c s).1) (execFaulty c s).2).1.2.lines, _
    at herr
  by_cases hanswer : no (execFaulty c s).1
  · obtain ⟨hself, hstate⟩ := hno _ hanswer _ herr
    exact ⟨hself, (hcall (s.sql 0) s.world hanswer).trans hstate⟩
  · obtain ⟨resp, hresp, hbegins⟩ := herr
    exact absurd hbegins ((hyes _ hanswer).lines _ resp hresp)

/-! ## Code that never sends an ERR line -/

theorem neverErr_sendLine {resp : Bytes} (h : ¬ IsErr resp) :
    NeverErr (self.sendLine resp) := List.forall_mem_singleton.mpr h

theorem not_isErr_of_word {word resp : Bytes} (h : word <+: resp) (hword : word ≠ [])
    (hne : word.head? ≠ some 69) : ¬ IsErr resp := by
  rintro ⟨t, rfl⟩
  obtain ⟨t', ht'⟩ := h
  have hheads := congrArg List.head? ht'
  rw [List.head?_append_of_ne_nil _ hword] at hheads
  exact hne hheads

theorem neverErr_ok (rest : Bytes) : NeverErr (self.sendLine (ascii "OK " ++ rest)) :=
  neverErr_sendLine (not_isErr_of_word (List.prefix_append _ _) (by decide) (by decide))

theorem neverErr_ask (c : Call) {k : c.Ans → Handler} (hk : ∀ r, NeverErr (k r)) :
    NeverErr (ask c >>= k) := ⟨trivial, fun r _ => hk r⟩

theorem neverErr_refresh {k : Unit → Handler} (hk : NeverErr (k ())) :
    NeverErr (refreshPriceAlertCache >>= k) :=
  (refresh_calls trivial (fun _ => trivial) fun _ => trivial).bind fun _ _ => hk

theorem neverErr_alertLines (records : List AlertRecord) :
    ∀ resp ∈ (alertLines records).lines, ¬ IsErr resp := by
  induction records with
  | nil => exact List.forall_mem_singleton.mpr (by decide)
  | cons r rest ih =>
      rw [alertLines]
      cases hline : alertLine r with
      | none => exact List.forall_mem_nil _
      | some line =>
          obtain rfl := snprintf_eq_some hline
          refine List.forall_mem_cons.mpr ⟨?_, ih⟩
          exact not_isErr_of_word
            (show ascii "ALERT" <+: _ from ⟨32 :: _, rfl⟩) (by decide) (by decide)

theorem neverErr_getPricesLoop (contracts : List Bytes) {sent : List Bytes}
    (hsent : ∀ resp ∈ sent, ¬ IsErr resp) :
    NeverErr (getPricesLoop self contracts sent) := by
  induction contracts generalizing sent with
  | nil =>
      exact List.forall_mem_append.mpr ⟨hsent, List.forall_mem_singleton.mpr (by decide)⟩
  | cons c rest ih =>
      rw [getPricesLoop]
      split
      · exact ih hsent
      · refine neverErr_ask (.subscribe c) fun _ =>
          neverErr_ask (.getLastPrice c) fun price => ?_
        cases hline : priceLine c price with
        | none => exact hsent
        | some line =>
            have hprice : ascii "PRICE" <+: line := by
              obtain rfl := snprintf_eq_some hline
              cases price <;> exact ⟨32 :: _, rfl⟩
            refine ih (List.forall_mem_append.mpr ⟨hsent,
                List.forall_mem_singleton.mpr ?_⟩)
            exact not_isErr_of_word hprice (by decide) (by decide)

/-! ## Handlers -/

variable {line : Bytes}

theorem handleRegister_rejects : Rejects self (handleRegister self line) := by
  unfold handleRegister
  split
  · rename_i username password email _ _
    refine rejects_ite (rejects_sendLine _) ?_
    refine rejects_ask (.registerUser username password email) (fun uid : ℤ => uid < 0)
      (fun sql w hneg => ⟨w.db.registerUser_rejected sql hneg, rfl, rfl⟩)
      (fun uid hneg => ?_) fun uid hok => ?_
    · rw [if_pos hneg]
      exact rejects_sendLine _
    · rw [if_neg hok]
      exact neverErr_sendLine (by decide)
  · exact rejects_sendLine _

theorem handleLogin_rejects : Rejects self (handleLogin self line) := by
  unfold handleLogin
  split
  · rename_i username password _ _
    refine rejects_ask (.verifyLogin username password) (fun uid : ℤ => uid < 0)
      (fun sql w _ => .refl w) (fun uid hneg => ?_) fun uid hok => ?_
    · rw [if_pos hneg]
      exact rejects_sendLine _
    · rw [if_neg hok]
      exact neverErr_ask (.registerSocket uid self.sock) fun _ =>
        neverErr_sendLine (by decide)
  · exact rejects_sendLine _

theorem handleAddPrice_rejects : Rejects self (handleAddPrice self line) := by
  unfold handleAddPrice
  refine rejects_ite (rejects_sendLine _) ?_
  split
  · rename_i contract price cond _ _
    refine rejects_ite (rejects_sendLine _) ?_
    refine rejects_ask (.addPriceAlert self.userId contract (atof price) (atoi cond))
      (fun id : ℤ => id < 0)
      (fun sql w hneg => ⟨w.db.insertAlert_rejected sql hneg, rfl, rfl⟩)
      (fun id hneg => ?_) fun id hok => ?_
    · rw [if_pos hneg]
      exact rejects_sendLine _
    · rw [if_neg hok]
      exact neverErr_refresh (neverErr_ask (.subscribe contract) fun _ => neverErr_ok _)
  · exact rejects_sendLine _

theorem handleAddTime_rejects : Rejects self (handleAddTime self line) := by
  unfold handleAddTime
  refine rejects_ite (rejects_sendLine _) ?_
  split
  · rename_i contract timeStr _ _
    refine rejects_ask (.addTimeAlert self.userId contract timeStr) (fun id : ℤ => id < 0)
      (fun sql w hneg => ⟨w.db.insertAlert_rejected sql hneg, rfl, rfl⟩)
      (fun id hneg => ?_) fun id hok => ?_
    · rw [if_pos hneg]
      exact rejects_sendLine _
    · rw [if_neg hok]
      exact neverErr_ask (.subscribe contract) fun _ => neverErr_ok _
  · exact rejects_sendLine _

theorem handleDelete_rejects : Rejects self (handleDelete self line) := by
  unfold handleDelete
  refine rejects_ite (rejects_sendLine _) ?_
  split
  · rename_i alertId _ _
    refine rejects_ask (.deleteAlert (atoi alertId) self.userId)
      (fun ok : Bool => ¬ ok = true)
      (fun sql w hno => ⟨w.db.updateAlerts_rejected sql hno, rfl, rfl⟩)
      (fun ok hno => ?_) fun ok hok => ?_
    · rw [if_neg hno]
      exact rejects_sendLine _
    · rw [if_pos (not_not.mp hok)]
      exact neverErr_refresh (neverErr_sendLine (by decide))
  · exact rejects_sendLine _

theorem handleModifyPrice_rejects : Rejects self (handleModifyPrice self line) := by
  unfold handleModifyPrice
  refine rejects_ite (rejects_sendLine _) ?_
  split
  · rename_i alertId contract price cond _ _
    refine rejects_ite (rejects_sendLine _) ?_
    refine rejects_ask (.modifyPriceAlert (atoi alertId) self.userId contract (atof price)
      (atoi cond)) (fun ok : Bool => ¬ ok = true)
      (fun sql w hno => ⟨w.db.updateAlerts_rejected sql hno, rfl, rfl⟩)
      (fun ok hno => ?_) fun ok hok => ?_
    · rw [if_neg hno]
      exact rejects_sendLine _
    · rw [if_pos (not_not.mp hok)]
      exact neverErr_refresh (neverErr_ask (.subscribe contract) fun _ =>
        neverErr_sendLine (by decide))
  · exact rejects_sendLine _

theorem handleModifyTime_rejects : Rejects self (handleModifyTime self line) := by
  unfold handleModifyTime
  refine rejects_ite (rejects_sendLine _) ?_
  split
  · rename_i alertId contract timeStr _ _
    refine rejects_ask (.modifyTimeAlert (atoi alertId) self.userId contract timeStr)
      (fun ok : Bool => ¬ ok = true)
      (fun sql w hno => ⟨w.db.updateAlerts_rejected sql hno, rfl, rfl⟩)
      (fun ok hno => ?_) fun ok hok => ?_
    · rw [if_neg hno]
      exact rejects_sendLine _
    · rw [if_pos (not_not.mp hok)]
      exact neverErr_refresh (neverErr_sendLine (by decide))
  · exact rejects_sendLine _

theorem handleQuery_rejects : Rejects self (handleQuery self line) := by
  unfold handleQuery
  refine rejects_ite (rejects_sendLine _) ?_
  split
  · rename_i status _ _
    have hnever :
        NeverErr (ask (.queryAlerts self.userId (atoi status)) >>= fun records =>
        return (self, alertLines records)) :=
      neverErr_ask _ fun records => neverErr_alertLines records
    exact hnever.rejects
  · exact rejects_sendLine _

theorem handleSetEmail_rejects : Rejects self (handleSetEmail self line) := by
  unfold handleSetEmail
  refine rejects_ite (rejects_sendLine _) ?_
  split
  · rename_i username password email _ _
    refine rejects_ite (rejects_sendLine _) ?_
    refine rejects_ask (.verifyLogin username password) (fun _ => True)
      (fun sql w _ => .refl w) (fun uid _ => ?_) fun uid hfalse => (hfalse trivial).elim
    refine rejects_ite (rejects_sendLine _) ?_
    refine rejects_ask (.setEmail self.userId email) (fun ok : Bool => ¬ ok = true)
      (fun sql w hno => ⟨w.db.setEmail_rejected sql hno, rfl, rfl⟩)
      (fun ok hno => ?_) fun ok hok => ?_
    · rw [if_neg hno]
      exact rejects_sendLine _
    · rw [if_pos (not_not.mp hok)]
      exact neverErr_sendLine (by decide)
  · exact rejects_sendLine _

theorem handleGetEmail_rejects : Rejects self (handleGetEmail self line) := by
  unfold handleGetEmail
  refine rejects_ite (rejects_sendLine _) ?_
  split
  · refine rejects_ite (rejects_sendLine _) ?_
    have hnever : NeverErr (ask (.getEmail self.userId) >>= fun email =>
        self.sendLine (ascii "OK " ++ email.val)) :=
      neverErr_ask _ fun email => neverErr_ok email.val
    exact hnever.rejects
  · exact rejects_sendLine _

theorem handleGetPrices_rejects : Rejects self (handleGetPrices self line) := by
  unfold handleGetPrices
  refine rejects_ite (rejects_sendLine _) ?_
  split
  · exact (neverErr_getPricesLoop _ (List.forall_mem_nil _)).rejects
  · exact rejects_sendLine _

end

theorem dispatch_rejects (self : Session) (line : Bytes) :
    Rejects self (dispatch self line) :=
  dispatch_rule self line (fun _ => handleRegister_rejects) (fun _ => handleLogin_rejects)
    (fun _ => handleAddPrice_rejects) (fun _ => handleAddTime_rejects)
    (fun _ => handleDelete_rejects) (fun _ => handleModifyPrice_rejects)
    (fun _ => handleModifyTime_rejects) (fun _ => handleQuery_rejects)
    (fun _ => handleSetEmail_rejects) (fun _ => handleGetEmail_rejects)
    (fun _ => handleGetPrices_rejects) (rejects_sendLine _)

/-- A command that is answered with an ERR line leaves the tables, the cache, the online
map and the session as they were, in every state and under every pattern of failures. -/
theorem err_changes_nothing (w : World) (sql : ℕ → Faults) (self : Session)
    (line resp : Bytes)
    (hresp : resp ∈ (run execFaulty (dispatch self line) ⟨w, sql⟩).1.2.lines)
    (herr : ascii "ERR" <+: resp) :
    (run execFaulty (dispatch self line) ⟨w, sql⟩).1.1 = self ∧
      (run execFaulty (dispatch self line) ⟨w, sql⟩).2.world.db = w.db ∧
      (run execFaulty (dispatch self line) ⟨w, sql⟩).2.world.priceAlertCache =
        w.priceAlertCache ∧
      (run execFaulty (dispatch self line) ⟨w, sql⟩).2.world.userSockets =
        w.userSockets := by
  obtain ⟨hself, hdb, hcache, honline⟩ :=
    dispatch_rejects self line ⟨w, sql⟩ ⟨resp, hresp, herr⟩
  exact ⟨hself, hdb, hcache, honline⟩

/-- A new server on an empty database, every step of whose statements fails. -/
def failingSteps : FaultyWorld :=
  ⟨.fresh .created true fun _ => ⟨2025, 6, 0, 9, 30, 0⟩,
    fun _ => ⟨fun _ => false, fun _ => true⟩⟩

theorem failed_register_changes_nothing :
    (run execFaulty (dispatch (.new 7) (ascii "REGISTER ann pw a@b")) failingSteps).1 =
        (.new 7, ⟨[ascii "ERR username already taken"], false⟩) ∧
      (run execFaulty (dispatch (.new 7) (ascii "REGISTER ann pw a@b"))
        failingSteps).2.world.db = .created := by
  have hout : (run execFaulty (dispatch (.new 7) (ascii "REGISTER ann pw a@b"))
      failingSteps).1 = (.new 7, ⟨[ascii "ERR username already taken"], false⟩) := by
    decide +kernel
  have hresp : ascii "ERR username already taken" ∈
      (run execFaulty (dispatch (.new 7) (ascii "REGISTER ann pw a@b"))
        failingSteps).1.2.lines := by
    rw [hout]
    exact List.mem_singleton_self _
  obtain ⟨-, hdb, -, -⟩ :=
    err_changes_nothing failingSteps.world failingSteps.sql (.new 7)
    (ascii "REGISTER ann pw a@b") _ hresp (by decide)
  exact ⟨hout, hdb⟩

end CloudAlert
