import CloudAlert.Server.ClientSession

/-!
# What the code calls

The call contract of each piece of server code, proved once: which calls a
command handler makes with which arguments, and the same for price checks, time
checks and the cache refresh. The answers they rely on (`Answer`) are that a
query returns rows of the kind it asks for, which every query does in every
state. A price check also relies on what its cache entry holds; there the
contract has the kind of copy as a parameter, and `WellKeyed` is the invariant
under which every copy is a pending price alert of its contract.
-/

namespace CloudAlert

open Program

/-- A pending price alert of the contract. -/
abbrev Keyed (c : Text) (rec : AlertRecord) : Prop :=
  rec.contract = c ∧ AlertDB.pendingPrice rec

/-- Every cached record is a pending price alert of the contract it is cached
under. -/
def WellKeyed (cache : PriceAlertCache) : Prop := ∀ c, ∀ rec ∈ cache.at c, Keyed c rec

theorem wellKeyed_empty : WellKeyed fun _ => none := by
  intro c rec h
  cases h

theorem WellKeyed.update {cache : PriceAlertCache} (h : WellKeyed cache) {c : Text}
    {records : List AlertRecord}
    (hr : ∀ rec ∈ records, Keyed c rec) :
    WellKeyed (Function.update cache c (some records)) := by
  intro c' rec hrec
  by_cases hc : c' = c
  · subst hc
    simp only [PriceAlertCache.at, Function.update_self, Option.getD_some] at hrec
    exact hr rec hrec
  · simp only [PriceAlertCache.at, Function.update_of_ne hc] at hrec
    exact h c' rec hrec

theorem WellKeyed.remove {cache : PriceAlertCache} (h : WellKeyed cache) (id : ℤ) :
    WellKeyed (cache.remove id) := by
  intro c rec hrec
  rw [PriceAlertCache.at_remove] at hrec
  exact h c rec (List.mem_of_mem_filter hrec)

/-- What the code relies on in the answer of a query. -/
def Answer : (c : Call) → c.Ans → Prop
  | .getPendingPriceAlerts c, records => ∀ rec ∈ records, Keyed c rec
  | .getPendingTimeAlerts t, records =>
      ∀ rec ∈ records, rec.triggerTime = t ∧ AlertDB.pendingTime rec
  | _, _ => True

/-- Calls that only read, or that write nothing but the subscriptions. -/
def QuietCall : Call → Prop
  | .getPendingPriceAlerts _ | .getPendingContracts | .getLastPrice _ => True
  | .subscribe _ => True
  | _ => False

/-- The calls of a cache refresh. -/
def RefreshCall : Call → Prop
  | .getPendingContracts | .getPendingPriceAlerts _ => True
  | .swapCache next => WellKeyed next
  | _ => False

/-- The commands that end with a cache refresh. -/
def refreshWords : List Bytes :=
  [ascii "ADD_PRICE", ascii "DELETE", ascii "MODIFY_PRICE", ascii "MODIFY_TIME"]

/-- The calls of a command handler of the session `self` on `line`. -/
def SessionCall (self : Session) (line : Bytes) : Call → Prop
  | .registerUser u p e =>
      commandWord line = ascii "REGISTER" ∧ u ≠ [] ∧ p ≠ [] ∧ e ≠ []
  | .verifyLogin u _ => commandWord line = ascii "LOGIN" ∨ u = self.username
  | .registerSocket _ sock => commandWord line = ascii "LOGIN" ∧ sock = self.sock
  | .setEmail uid _ =>
      commandWord line = ascii "SET_EMAIL" ∧ 0 ≤ self.userId ∧ uid = self.userId
  | .getEmail uid => 0 ≤ self.userId ∧ uid = self.userId
  | .queryAlerts uid _ => 0 ≤ self.userId ∧ uid = self.userId
  | .addPriceAlert uid _ _ cond =>
      commandWord line = ascii "ADD_PRICE" ∧ 0 ≤ self.userId ∧ uid = self.userId ∧
        (cond = condGE ∨ cond = condLE)
  | .addTimeAlert uid _ _ =>
      commandWord line = ascii "ADD_TIME" ∧ 0 ≤ self.userId ∧ uid = self.userId
  | .deleteAlert _ uid =>
      commandWord line = ascii "DELETE" ∧ 0 ≤ self.userId ∧ uid = self.userId
  | .modifyPriceAlert _ uid _ _ cond =>
      commandWord line = ascii "MODIFY_PRICE" ∧ 0 ≤ self.userId ∧ uid = self.userId ∧
        (cond = condGE ∨ cond = condLE)
  | .modifyTimeAlert _ uid _ _ =>
      commandWord line = ascii "MODIFY_TIME" ∧ 0 ≤ self.userId ∧ uid = self.userId
  | .swapCache next => commandWord line ∈ refreshWords ∧ WellKeyed next
  | c => QuietCall c

/-- The calls of the end of a session. -/
def EndCall (self : Session) : Call → Prop
  | .unregisterSocket uid sock =>
      self.userId ≠ -1 ∧ uid = self.userId ∧ sock = self.sock
  | _ => False

/-- The calls of the loop of a price check over copies in `copy`. -/
def PriceLoopCall (copy : AlertRecord → Prop) (lastPrice : ℚ) : Call → Prop
  | .triggerAlert rec _ => copy rec ∧ fires rec lastPrice
  | .currentTime | .removeCached _ | .fireAlert _ | .getEmail _ | .notify _ => True
  | _ => False

/-- The calls of a price check of `contract` at `lastPrice` over copies in
`copy`. -/
def PriceCheckCall (copy : AlertRecord → Prop) (contract : Text) (lastPrice : ℚ) :
    Call → Prop
  | .setLastPrice c p => accepted lastPrice ∧ c = contract ∧ p = lastPrice
  | .copyCached c => c = contract
  | c => PriceLoopCall copy lastPrice c

/-- The calls of the loop of a time check over copies in `copy`. -/
def TimeLoopCall (copy : AlertRecord → Prop) : Call → Prop
  | .triggerAlert rec _ => copy rec
  | .currentTime | .getLastPrice _ | .fireAlert _ | .getEmail _ | .notify _ => True
  | _ => False

/-- The calls of a time check at `hms`. -/
def TimeCheckCall (hms : Text) : Call → Prop
  | .getPendingTimeAlerts t => t = hms
  | c => TimeLoopCall (fun rec => rec.triggerTime = hms ∧ AlertDB.pendingTime rec) c

theorem answer_exec (c : Call) (w : World) : Answer c (exec c w).1 := by
  cases c with
  | getPendingPriceAlerts c =>
      intro rec hrec
      simp only [exec, execWith, AlertDB.getPendingPriceAlerts, Faults.none_query,
        Table.mem_select, decide_eq_true_iff] at hrec
      exact ⟨hrec.2.2, hrec.2.1⟩
  | getPendingTimeAlerts t =>
      intro rec hrec
      simp only [exec, execWith, AlertDB.getPendingTimeAlerts, Faults.none_query,
        Table.mem_select, decide_eq_true_iff] at hrec
      exact ⟨hrec.2.2, hrec.2.1⟩
  | _ => trivial

/-- The cache stays well keyed when what is swapped in is. -/
theorem WellKeyed.exec {c : Call} {w : World} (h : WellKeyed w.priceAlertCache)
    (hc : ∀ next, c = .swapCache next → WellKeyed next) :
    WellKeyed (CloudAlert.exec c w).2.priceAlertCache := by
  cases c with
  | swapCache next => exact hc next rfl
  | removeCached id => exact h.remove id
  | unregisterSocket uid sock =>
      simp only [CloudAlert.exec, execWith]
      split <;> exact h
  | subscribe c =>
      simp only [CloudAlert.exec, execWith]
      split <;> exact h
  | _ => exact h

/-! ## The refresh -/

theorem refreshLoop_respects {pre : Call → Prop}
    (hpre : ∀ c, RefreshCall c → pre c) (contracts : List Text)
    {next : PriceAlertCache} (h : WellKeyed next) :
    (refreshLoop contracts next).Respects pre Answer WellKeyed := by
  induction contracts generalizing next with
  | nil => exact h
  | cons c rest ih =>
      refine ⟨hpre _ trivial, fun records hr => ?_⟩
      change Respects pre Answer WellKeyed (if records ≠ [] then _ else _)
      split
      · exact ih (h.update hr)
      · exact ih h

theorem refresh_respects {pre : Call → Prop} (hpre : ∀ c, RefreshCall c → pre c) :
    refreshPriceAlertCache.Respects pre Answer fun _ => True := by
  refine ⟨hpre _ trivial, fun contracts _ => ?_⟩
  refine (refreshLoop_respects hpre contracts wellKeyed_empty).bind fun next hnext => ?_
  exact ⟨hpre (.swapCache next) hnext, fun _ _ => trivial⟩

/-- Whatever its calls are answered, a refresh makes no others. -/
theorem refresh_calls {pre : Call → Prop} {post : (c : Call) → c.Ans → Prop}
    (hcontracts : pre .getPendingContracts) (hread : ∀ c, pre (.getPendingPriceAlerts c))
    (hswap : ∀ next, pre (.swapCache next)) :
    refreshPriceAlertCache.Respects pre post fun _ => True := by
  have hloop : ∀ contracts next,
      (refreshLoop contracts next).Respects pre post fun _ => True := by
    intro contracts
    induction contracts with
    | nil => exact fun _ => trivial
    | cons c rest ih =>
        intro next
        refine ⟨hread c, fun records _ => ?_⟩
        change Respects _ _ _ (if records ≠ [] then _ else _)
        split
        · exact ih _
        · exact ih _
  refine ⟨hcontracts, fun contracts _ => ?_⟩
  exact (hloop contracts _).bind fun next _ => ⟨hswap next, fun _ _ => trivial⟩

/-! ## Command handlers -/

section Handlers

variable (self : Session) (line : Bytes)

/-- What a handler leaves of the session's data: only LOGIN changes it, and never
the socket. -/
def SessionKept (out : Session × Reply) : Prop :=
  out.1.sock = self.sock ∧ (out.1 = self ∨ commandWord line = ascii "LOGIN")

/-- The contract of a handler. -/
abbrev HandlerOk (h : Handler) : Prop :=
  h.Respects (SessionCall self line) Answer (SessionKept self line)

variable {self line}

theorem sendLine_ok (resp : Bytes) : HandlerOk self line (self.sendLine resp) :=
  ⟨rfl, .inl rfl⟩

theorem refresh_bind_ok (hword : commandWord line ∈ refreshWords) {k : Unit → Handler}
    (hk : HandlerOk self line (k ())) :
    HandlerOk self line (refreshPriceAlertCache >>= k) := by
  refine (refresh_respects fun c hc => ?_).bind fun _ _ => hk
  cases c <;> first | exact hc | exact ⟨hword, hc⟩ | exact hc.elim

theorem subscribe_bind_ok {c : Bytes} {k : Unit → Handler}
    (hk : HandlerOk self line (k ())) :
    HandlerOk self line (ask (.subscribe c) >>= k) :=
  ⟨trivial, fun _ _ => hk⟩

theorem handleRegister_ok (h : commandWord line = ascii "REGISTER") :
    HandlerOk self line (handleRegister self line) := by
  unfold handleRegister
  split
  · split
    · exact sendLine_ok _
    · rename_i hne
      push Not at hne
      refine ⟨⟨h, hne⟩, fun uid _ => ?_⟩
      change HandlerOk self line (if uid < 0 then _ else _)
      split <;> exact sendLine_ok _
  · exact sendLine_ok _

theorem handleLogin_ok (h : commandWord line = ascii "LOGIN") :
    HandlerOk self line (handleLogin self line) := by
  unfold handleLogin
  split
  · refine ⟨.inl h, fun uid _ => ?_⟩
    change HandlerOk self line (if uid < 0 then _ else _)
    split
    · exact sendLine_ok _
    · exact ⟨⟨h, rfl⟩, fun _ _ => ⟨rfl, .inr h⟩⟩
  · exact sendLine_ok _

theorem handleAddPrice_ok (h : commandWord line = ascii "ADD_PRICE") :
    HandlerOk self line (handleAddPrice self line) := by
  have hword : commandWord line ∈ refreshWords := by simp [h, refreshWords]
  unfold handleAddPrice
  split
  · exact sendLine_ok _
  · rename_i hself
    split
    · split
      · exact sendLine_ok _
      · rename_i hcond
        refine ⟨⟨h, not_lt.mp hself, rfl, ?_⟩, fun id _ => ?_⟩
        · by_contra hne
          push Not at hne
          exact hcond hne
        · change HandlerOk self line (if id < 0 then _ else _)
          split
          · exact sendLine_ok _
          · exact refresh_bind_ok hword (subscribe_bind_ok (sendLine_ok _))
    · exact sendLine_ok _

theorem handleAddTime_ok (h : commandWord line = ascii "ADD_TIME") :
    HandlerOk self line (handleAddTime self line) := by
  unfold handleAddTime
  split
  · exact sendLine_ok _
  · rename_i hself
    split
    · refine ⟨⟨h, not_lt.mp hself, rfl⟩, fun id _ => ?_⟩
      change HandlerOk self line (if id < 0 then _ else _)
      split
      · exact sendLine_ok _
      · exact subscribe_bind_ok (sendLine_ok _)
    · exact sendLine_ok _

theorem handleDelete_ok (h : commandWord line = ascii "DELETE") :
    HandlerOk self line (handleDelete self line) := by
  have hword : commandWord line ∈ refreshWords := by simp [h, refreshWords]
  unfold handleDelete
  split
  · exact sendLine_ok _
  · rename_i hself
    split
    · refine ⟨⟨h, not_lt.mp hself, rfl⟩, fun ok _ => ?_⟩
      change HandlerOk self line (if ok = true then _ else _)
      split
      · exact refresh_bind_ok hword (sendLine_ok _)
      · exact sendLine_ok _
    · exact sendLine_ok _

theorem handleModifyPrice_ok (h : commandWord line = ascii "MODIFY_PRICE") :
    HandlerOk self line (handleModifyPrice self line) := by
  have hword : commandWord line ∈ refreshWords := by simp [h, refreshWords]
  unfold handleModifyPrice
  split
  · exact sendLine_ok _
  · rename_i hself
    split
    · split
      · exact sendLine_ok _
      · rename_i hcond
        refine ⟨⟨h, not_lt.mp hself, rfl, ?_⟩, fun ok _ => ?_⟩
        · by_contra hne
          push Not at hne
          exact hcond hne
        · change HandlerOk self line (if ok = true then _ else _)
          split
          · exact refresh_bind_ok hword (subscribe_bind_ok (sendLine_ok _))
          · exact sendLine_ok _
    · exact sendLine_ok _

theorem handleModifyTime_ok (h : commandWord line = ascii "MODIFY_TIME") :
    HandlerOk self line (handleModifyTime self line) := by
  have hword : commandWord line ∈ refreshWords := by simp [h, refreshWords]
  unfold handleModifyTime
  split
  · exact sendLine_ok _
  · rename_i hself
    split
    · refine ⟨⟨h, not_lt.mp hself, rfl⟩, fun ok _ => ?_⟩
      change HandlerOk self line (if ok = true then _ else _)
      split
      · exact refresh_bind_ok hword (sendLine_ok _)
      · exact sendLine_ok _
    · exact sendLine_ok _

theorem handleQuery_ok : HandlerOk self line (handleQuery self line) := by
  unfold handleQuery
  split
  · exact sendLine_ok _
  · rename_i hself
    split
    · exact ⟨⟨not_lt.mp hself, rfl⟩, fun _ _ => ⟨rfl, .inl rfl⟩⟩
    · exact sendLine_ok _

theorem handleSetEmail_ok (h : commandWord line = ascii "SET_EMAIL") :
    HandlerOk self line (handleSetEmail self line) := by
  unfold handleSetEmail
  split
  · exact sendLine_ok _
  · rename_i hself
    split
    · split
      · exact sendLine_ok _
      · rename_i hname
        refine ⟨.inr (not_not.mp hname), fun uid _ => ?_⟩
        change HandlerOk self line (if uid ≠ self.userId then _ else _)
        split
        · exact sendLine_ok _
        · refine ⟨⟨h, not_lt.mp hself, rfl⟩, fun ok _ => ?_⟩
          change HandlerOk self line (if ok = true then _ else _)
          split <;> exact sendLine_ok _
    · exact sendLine_ok _

theorem handleGetEmail_ok : HandlerOk self line (handleGetEmail self line) := by
  unfold handleGetEmail
  split
  · exact sendLine_ok _
  · rename_i hself
    split
    · split
      · exact sendLine_ok _
      · exact ⟨⟨not_lt.mp hself, rfl⟩, fun _ _ => sendLine_ok _⟩
    · exact sendLine_ok _

theorem getPricesLoop_ok (contracts sent : List Bytes) :
    HandlerOk self line (getPricesLoop self contracts sent) := by
  induction contracts generalizing sent with
  | nil => exact ⟨rfl, .inl rfl⟩
  | cons c rest ih =>
      by_cases hne : c = []
      · rw [getPricesLoop, if_pos hne]
        exact ih sent
      · rw [getPricesLoop_cons self hne]
        refine ⟨trivial, fun _ _ => ⟨trivial, fun lastPrice _ => ?_⟩⟩
        beta_reduce
        cases priceLine c lastPrice with
        | none => exact ⟨rfl, .inl rfl⟩
        | some item => exact ih _

theorem handleGetPrices_ok : HandlerOk self line (handleGetPrices self line) := by
  unfold handleGetPrices
  split
  · exact sendLine_ok _
  · split
    · exact getPricesLoop_ok _ _
    · exact sendLine_ok _

theorem dispatch_ok (self : Session) (line : Bytes) :
    HandlerOk self line (dispatch self line) :=
  dispatch_rule self line (fun h => handleRegister_ok h) (fun h => handleLogin_ok h)
    (fun h => handleAddPrice_ok h) (fun h => handleAddTime_ok h)
    (fun h => handleDelete_ok h) (fun h => handleModifyPrice_ok h)
    (fun h => handleModifyTime_ok h)
    (fun _ => handleQuery_ok) (fun h => handleSetEmail_ok h)
    (fun _ => handleGetEmail_ok) (fun _ => handleGetPrices_ok) (sendLine_ok _)

theorem dispatch_run (self : Session) (line : Bytes) (inv : World → Prop)
    (hstep : ∀ c w, SessionCall self line c → inv w → inv (exec c w).2) {w : World}
    (hw : inv w) :
    inv (run exec (dispatch self line) w).2 ∧
      SessionKept self line (run exec (dispatch self line) w).1 := by
  exact (dispatch_ok self line).run inv
    (fun c w hc h => ⟨hstep c w hc h, answer_exec c w⟩) hw

end Handlers

theorem endSession_respects (self : Session) :
    (endSession self).Respects (EndCall self) Answer fun _ => True := by
  unfold endSession
  split
  · rename_i h
    exact ⟨⟨h, rfl, rfl⟩, fun _ _ => trivial⟩
  · trivial

/-! ## Checks -/

section Checks

variable {pre : Call → Prop} {post : (c : Call) → c.Ans → Prop}

theorem fireAlert_respects (hfire : ∀ rec, pre (.fireAlert rec))
    (hmail : ∀ uid, pre (.getEmail uid)) (hnotify : ∀ task, pre (.notify task))
    (rec : AlertRecord) (p : ℚ) (ts : Text) :
    (fireAlert rec p ts).Respects pre post fun _ => True := by
  obtain h | h | ⟨msg, subject, body, -, h⟩ := fireAlert_cases rec p ts
  · rw [h]
    exact ⟨hfire rec, fun _ _ => trivial⟩
  · rw [h]
    exact ⟨hfire rec, fun _ _ => ⟨hmail _, fun _ _ => trivial⟩⟩
  · rw [h]
    exact ⟨hfire rec, fun _ _ => ⟨hmail _, fun _ _ => ⟨hnotify _, fun _ _ => trivial⟩⟩⟩

theorem checkPriceLoop_respects {copy : AlertRecord → Prop} {p : ℚ}
    {todo : List AlertRecord} (h : ∀ rec ∈ todo, copy rec) :
    (checkPriceLoop p todo).Respects (PriceLoopCall copy p) post fun _ => True := by
  induction todo with
  | nil => trivial
  | cons rec rest ih =>
      have hrest := ih fun r hr => h r (List.mem_cons_of_mem _ hr)
      unfold checkPriceLoop
      split
      · rename_i hfires
        refine ⟨trivial, fun ts _ => ⟨⟨h rec List.mem_cons_self, hfires⟩, fun ok _ => ?_⟩⟩
        change Respects _ post _ (if ok = true then _ else _)
        split
        · refine ⟨trivial, fun _ _ => ?_⟩
          refine (fireAlert_respects ?_ ?_ ?_ rec p ts.stamp).bind fun fits _ => ?_
          · exact fun _ => trivial
          · exact fun _ => trivial
          · exact fun _ => trivial
          · change Respects _ post _ (if fits = true then _ else _)
            split
            · exact hrest
            · trivial
        · exact hrest
      · exact hrest

theorem checkPriceAlert_respects {copy : AlertRecord → Prop} (contract : Text) (p : ℚ)
    (hcopy : ∀ records, post (.copyCached contract) records →
      ∀ rec ∈ records, copy rec) :
    (checkPriceAlert contract p).Respects (PriceCheckCall copy contract p) post
      fun _ => True := by
  have hloop : ∀ pending : List AlertRecord, post (.copyCached contract) pending →
      (checkPriceLoop p pending).Respects (PriceCheckCall copy contract p) post
        fun _ => True := by
    intro pending hpending
    refine (checkPriceLoop_respects (hcopy pending hpending)).mono (fun c hc => ?_)
      (fun _ _ _ h => h) fun _ h => h
    cases c <;> first | exact hc | exact hc.elim
  have hcheck : (ask (.copyCached contract) >>= checkPriceLoop p).Respects
      (PriceCheckCall copy contract p) post fun _ => True := ⟨rfl, hloop⟩
  unfold checkPriceAlert
  split
  · rename_i hacc
    exact ⟨⟨hacc, rfl, rfl⟩, fun _ _ => hcheck⟩
  · exact hcheck

theorem checkTimeLoop_respects {copy : AlertRecord → Prop} {todo : List AlertRecord}
    (h : ∀ rec ∈ todo, copy rec) :
    (checkTimeLoop todo).Respects (TimeLoopCall copy) post fun _ => True := by
  induction todo with
  | nil => trivial
  | cons rec rest ih =>
      have hrest := ih fun r hr => h r (List.mem_cons_of_mem _ hr)
      refine ⟨trivial, fun ts _ => ⟨h rec List.mem_cons_self, fun ok _ => ?_⟩⟩
      change Respects _ post _ (if ok = true then _ else _)
      split
      · refine ⟨trivial, fun lastPrice _ => ?_⟩
        refine (fireAlert_respects ?_ ?_ ?_ rec _ ts.stamp).bind fun fits _ => ?_
        · exact fun _ => trivial
        · exact fun _ => trivial
        · exact fun _ => trivial
        · change Respects _ post _ (if fits = true then _ else _)
          split
          · exact hrest
          · trivial
      · exact hrest

theorem checkTimeAlertsAt_respects (hms : Text) :
    (checkTimeAlertsAt hms).Respects (TimeCheckCall hms) Answer fun _ => True := by
  refine ⟨rfl, fun pending hpending => ?_⟩
  refine (checkTimeLoop_respects hpending).mono (fun c hc => ?_)
    (fun _ _ _ h => h) fun _ h => h
  cases c <;> first | exact hc | exact hc.elim

end Checks

end CloudAlert
