import CloudAlert.Concurrent.Arming
import CloudAlert.Program.Machine

/-!
# Market-data subscriptions

The threads of the server next to the market-data session. A login runs
`OnRspUserLogin`, which reads the contracts of the pending alerts and then passes them to
`SubscribeMarketData`; the handlers of ADD_PRICE, ADD_TIME and MODIFY_PRICE pass the
contract of their alert. A subscription holds for the session it was made in, so what
counts is the part of `World.subscribed` since the last login.

MODIFY_TIME passes nothing. `subscribed_of_run` says that this is the only gap: as long as
each MODIFY_TIME goes to a contract that is subscribed or about to be, the contract of
every pending alert is subscribed whenever no command is in progress.
-/

namespace CloudAlert

open Program

/-! ## The market-data session -/

/-- Where `OnRspUserLogin` is. -/
inductive LoginCallback where
  | returned
  | atPending                               -- at `GetPendingContracts`
  | atSubscribe (contracts : List Text)     -- at `Subscribe`
deriving DecidableEq

/-- The server's threads and the market-data session: how many contracts had been passed
to `SubscribeMarketData` when it logged in, if it is logged in. -/
structure MarketSystem (ι : Type*) where
  threads : Threads ι
  session : Option ℕ
  callback : LoginCallback

/-- What can happen: a step of a server thread, `Connect` sets `m_pApi`, the front accepts
the login, the next step of `OnRspUserLogin`, the front disconnects. -/
inductive MarketAction (ι : Type*) where
  | server (a : Choice ι Job)
  | connect
  | login
  | callback
  | disconnect

variable {ι : Type*}

/-- The world the threads share. -/
def MarketSystem.world (s : MarketSystem ι) : World := s.threads.shared

/-- The state with another world. -/
def MarketSystem.setWorld (s : MarketSystem ι) (w : World) : MarketSystem ι :=
  { s with threads := { s.threads with shared := w } }

/-- `CTPMdHandler::Subscribe` of several contracts. -/
def World.subscribeAll (w : World) (contracts : List Text) : World :=
  if contracts = [] ∨ ¬ w.marketData then w
  else { w with subscribed := w.subscribed ++ contracts.map Subtype.val }

/-- The next step of `OnRspUserLogin`. -/
def MarketSystem.stepCallback (s : MarketSystem ι) : Option (MarketSystem ι) :=
  match s.callback with
  | .returned => none
  | .atPending =>
      some { s with callback := .atSubscribe (exec .getPendingContracts s.world).1 }
  | .atSubscribe contracts =>
      some { s.setWorld (s.world.subscribeAll contracts) with callback := .returned }

/-- The server with its market-data session. A login comes after the callback of an
earlier one has returned: one thread of the API makes all callbacks. -/
def market [DecidableEq ι] : Machine (MarketSystem ι) (MarketAction ι) where
  next s
    | .server a => (server.next s.threads a).map fun out => { s with threads := out.2 }
    | .connect => some (s.setWorld { s.world with marketData := true })
    | .login =>
        match s.world.marketData, s.session, s.callback with
        | true, none, .returned => some { s with
            session := some s.world.subscribed.length, callback := .atPending }
        | _, _, _ => none
    | .callback => s.stepCallback
    | .disconnect => if s.session.isSome then some { s with session := none } else none

/-- What an action can do. -/
inductive MarketStep [DecidableEq ι] (s : MarketSystem ι) :
    MarketAction ι → MarketSystem ι → Prop where
  | server {a lbl c'} (hnext : server.next s.threads a = some (lbl, c')) :
      MarketStep s (.server a) { s with threads := c' }
  | connect : MarketStep s .connect (s.setWorld { s.world with marketData := true })
  | login (hdata : s.world.marketData = true) (hout : s.session = none)
      (hcallback : s.callback = .returned) : MarketStep s .login { s with
        session := some s.world.subscribed.length, callback := .atPending }
  | read (hat : s.callback = .atPending) : MarketStep s .callback { s with
      callback := .atSubscribe (exec .getPendingContracts s.world).1 }
  | pass {contracts} (hat : s.callback = .atSubscribe contracts) :
      MarketStep s .callback
        { s.setWorld (s.world.subscribeAll contracts) with callback := .returned }
  | disconnect : MarketStep s .disconnect { s with session := none }

theorem step_of_market [DecidableEq ι] {s s' : MarketSystem ι} {a : MarketAction ι}
    (h : market.next s a = some s') : MarketStep s a s' := by
  cases a with
  | server a =>
      obtain ⟨⟨lbl, c'⟩, hnext, rfl⟩ := Option.map_eq_some_iff.mp h
      exact .server hnext
  | connect =>
      obtain rfl := Option.some.inj h
      exact .connect
  | login =>
      simp only [market] at h
      split at h
      · rename_i hdata hout hcallback
        obtain rfl := Option.some.inj h
        exact .login hdata hout hcallback
      · cases h
  | callback =>
      simp only [market, MarketSystem.stepCallback] at h
      split at h
      · cases h
      · rename_i hat
        obtain rfl := Option.some.inj h
        exact .read hat
      · rename_i hat
        obtain rfl := Option.some.inj h
        exact .pass hat
  | disconnect =>
      obtain ⟨-, h⟩ := Option.ite_none_right_eq_some.mp h
      obtain rfl := Option.some.inj h
      exact .disconnect

/-! ## Handlers that will subscribe a contract -/

/-- The code passes the contract to `SubscribeMarketData` before it ends. -/
def Subscribes (contract : Text) (p : Handler) : Prop :=
  p.Leads Answer fun o => ∃ c, o = .subscribe c ∧ cstr c = contract

/-- After its table write, a handler that adds an alert or modifies a price alert
subscribes the contract. -/
def SubscribesAfter : (c : Call) → (c.Ans → Handler) → Prop
  | .addPriceAlert _ c _ _, k => ∀ id : ℤ, 0 ≤ id → Subscribes (cstr c) (k id)
  | .addTimeAlert _ c _, k => ∀ id : ℤ, 0 ≤ id → Subscribes (cstr c) (k id)
  | .modifyPriceAlert _ _ c _ _, k => Subscribes (cstr c) (k true)
  | _, _ => True

theorem subscribesAfter_quiet (c : Call) (k : c.Ans → Handler) (h : ¬ c.arms) :
    SubscribesAfter c k := by
  cases c <;> first | trivial | exact absurd trivial h

theorem subscribes_after_refresh (c : Bytes) (k : Unit → Handler) :
    Subscribes (cstr c) (refreshPriceAlertCache >>= fun _ => ask (.subscribe c) >>= k) :=
  (refresh_respects fun _ h => h).leads_bind fun _ _ => .inl ⟨c, rfl, rfl⟩

theorem handleAddPrice_subscribes (self : Session) (line : Bytes) :
    (handleAddPrice self line).Everywhere Answer SubscribesAfter := by
  unfold handleAddPrice
  split
  · trivial
  · split
    · rename_i contract price cond _ _
      split
      · trivial
      · refine ⟨fun id hid => ?_,
          fun id _ => everywhere_of_decided subscribesAfter_quiet ?_⟩
        · change Subscribes (cstr contract) (if id < 0 then _ else _)
          rw [if_neg (not_lt.mpr hid)]
          exact subscribes_after_refresh contract _
        · exact decided_ite (decided_ret _)
            (decided_refresh (decided_subscribe (decided_ret _)))
    · trivial

theorem handleAddTime_subscribes (self : Session) (line : Bytes) :
    (handleAddTime self line).Everywhere Answer SubscribesAfter := by
  unfold handleAddTime
  split
  · trivial
  · split
    · rename_i contract timeStr _ _
      refine ⟨fun id hid => ?_,
        fun id _ => everywhere_of_decided subscribesAfter_quiet ?_⟩
      · change Subscribes (cstr contract) (if id < 0 then _ else _)
        rw [if_neg (not_lt.mpr hid)]
        exact .inl ⟨contract, rfl, rfl⟩
      · exact decided_ite (decided_ret _) (decided_subscribe (decided_ret _))
    · trivial

theorem handleModifyPrice_subscribes (self : Session) (line : Bytes) :
    (handleModifyPrice self line).Everywhere Answer SubscribesAfter := by
  unfold handleModifyPrice
  split
  · trivial
  · split
    · rename_i contract price cond _ _
      split
      · trivial
      · refine ⟨?_, fun ok _ => everywhere_of_decided subscribesAfter_quiet ?_⟩
        · change Subscribes (cstr contract) (refreshPriceAlertCache >>= _)
          exact subscribes_after_refresh contract _
        · exact decided_ite (decided_refresh (decided_subscribe (decided_ret _)))
            (decided_ret _)
    · trivial

theorem serverCode_subscribes (job : Job) (self : Session) :
    (serverCode job self).Everywhere Answer SubscribesAfter := by
  refine serverCode_everywhere subscribesAfter_quiet job self fun line => ?_
  refine dispatch_everywhere subscribesAfter_quiet self line
    (fun _ => handleAddPrice_subscribes self line)
    (fun _ => handleAddTime_subscribes self line)
    (fun _ => handleModifyPrice_subscribes self line) fun h => ?_
  refine (handleModifyTime_ok h).everywhere fun c k hc => ?_
  cases c with
  | addPriceAlert => exact absurd (h.symm.trans hc.1) (by decide)
  | addTimeAlert => exact absurd (h.symm.trans hc.1) (by decide)
  | modifyPriceAlert => exact absurd (h.symm.trans hc.1) (by decide)
  | _ => trivial

/-! ## The invariant -/

/-- The callback has still to pass the contract. -/
def LoginCallback.willPass : LoginCallback → Text → Prop
  | .returned, _ => False
  | .atPending, _ => True
  | .atSubscribe contracts, contract => contract ∈ contracts

/-- Since `mark` contracts had been passed, the contract has been passed, or the login
callback or one of the threads in `others` has still to pass it. -/
def Covered (s : MarketSystem ι) (others : ι → Prop) (mark : ℕ) (contract : Text) :
    Prop :=
  contract.val ∈ s.world.subscribed.drop mark ∨ s.callback.willPass contract ∨
    ∃ j, others j ∧ ∃ self line p, s.threads.thread j = .busy self (.line line) p ∧
      Subscribes contract p

/-- While the market-data session is logged in, a MODIFY_TIME that succeeds goes to a
contract that is subscribed or about to be. -/
def ModifiesSubscribed [DecidableEq ι] (_t : List (MarketAction ι)) (s : MarketSystem ι)
    (a : MarketAction ι) : Prop :=
  ∀ choice lbl c', a = .server choice → server.next s.threads choice = some (lbl, c') →
    ∀ id uid c time, lbl.kind = .call (.modifyTimeAlert id uid c time) true →
      ∀ mark, s.session = some mark → Covered s (· ≠ lbl.thread) mark (cstr c)

/-- What every action keeps. -/
structure MarketOk (s : MarketSystem ι) : Prop where
  loggedIn : ∀ mark, s.session = some mark →
    mark ≤ s.world.subscribed.length ∧ s.world.marketData = true
  covered : ∀ mark, s.session = some mark → ∀ r ∈ s.world.db.alerts.rows, r.status = 0 →
    Covered s (fun _ => True) mark r.contract
  keeps : System.Keeps (fun _ => True) (ServerCall fun _ _ => True) Answer ServerResult
    s.threads
  nodes : ∀ i self job p, s.threads.thread i = .busy self job p →
    p.Everywhere Answer SubscribesAfter

/-- Contracts are only added. -/
theorem exec_subscribed (o : Call) (w : World) :
    (exec o w).2.marketData = w.marketData ∧
      ∃ more, (exec o w).2.subscribed = w.subscribed ++ more := by
  have hsame : ∃ more, w.subscribed = w.subscribed ++ more :=
    ⟨[], (List.append_nil _).symm⟩
  cases o with
  | subscribe c =>
      simp only [exec, execWith]
      split
      · exact ⟨rfl, _, rfl⟩
      · exact ⟨rfl, hsame⟩
  | unregisterSocket uid sock =>
      simp only [exec, execWith]
      split <;> exact ⟨rfl, hsame⟩
  | _ => exact ⟨rfl, hsame⟩

/-- `Subscribe` adds all its contracts, once the API is there. -/
theorem subscribeAll_spec (w : World) (contracts : List Text) :
    (w.subscribeAll contracts).db = w.db ∧
      (w.subscribeAll contracts).marketData = w.marketData ∧
      ∃ more, (w.subscribeAll contracts).subscribed = w.subscribed ++ more ∧
        (w.marketData = true → ∀ contract ∈ contracts, contract.val ∈ more) := by
  unfold World.subscribeAll
  split
  · rename_i hnone
    refine ⟨rfl, rfl, [], (List.append_nil _).symm, fun hdata contract hmem => ?_⟩
    rcases hnone with rfl | hno
    · cases hmem
    · exact absurd hdata hno
  · exact ⟨rfl, rfl, _, rfl, fun _ contract hmem => List.mem_map_of_mem hmem⟩

theorem mem_drop_append {α : Type*} {l more : List α} {mark : ℕ} {a : α}
    (hmark : mark ≤ l.length) (h : a ∈ l.drop mark ∨ a ∈ more) :
    a ∈ (l ++ more).drop mark := by
  rw [List.drop_append_of_le_length hmark]
  exact List.mem_append.mpr h

section Steps

variable [DecidableEq ι] {s : MarketSystem ι} {lbl : ServerStep ι} {c' : Threads ι}

/-- A step of a thread keeps a contract covered: the thread that was to pass it has passed
it, or goes on to do so. -/
theorem covered_server {others : ι → Prop} {mark : ℕ} {contract : Text}
    (h : Covered s others mark contract) (hmark : mark ≤ s.world.subscribed.length)
    (hdata : s.world.marketData = true) (hstep : server.Step s.threads lbl c') :
    Covered { s with threads := c' } (fun _ => True) mark contract := by
  have hother : ∀ j, j ≠ lbl.thread → ∀ self line p,
      s.threads.thread j = .busy self (.line line) p → Subscribes contract p →
      Covered { s with threads := c' } (fun _ => True) mark contract :=
    fun j hj self line p hbusy hp => .inr (.inr
      ⟨j, trivial, self, line, p, (hstep.thread_of_ne hj).trans hbusy, hp⟩)
  rcases h with hpassed | hcallback | ⟨j, -, self, line, p, hbusy, hp⟩
  · refine .inl ?_
    cases hstep with
    | start => exact hpassed
    | finish => exact hpassed
    | call i self job o k hcall =>
        obtain ⟨-, more, hmore⟩ := exec_subscribed o s.world
        change contract.val ∈ (exec o s.world).2.subscribed.drop mark
        rw [hmore]
        exact mem_drop_append hmark (.inl hpassed)
  · exact .inr (.inl hcallback)
  · by_cases hj : j = lbl.thread
    · cases hstep with
      | start i self' job hidle =>
          obtain rfl : j = i := hj
          exact absurd (hidle.symm.trans hbusy) nofun
      | finish i self' job out b hret =>
          obtain rfl : j = i := hj
          obtain ⟨-, -, rfl⟩ := Thread.busy.inj (hret.symm.trans hbusy)
          exact hp.elim
      | call i self' job o k hcall =>
          obtain rfl : j = i := hj
          obtain ⟨rfl, rfl, rfl⟩ := Thread.busy.inj (hcall.symm.trans hbusy)
          rcases hp with ⟨c, rfl, rfl⟩ | hrest
          · refine .inl ?_
            have hpass : (exec (.subscribe c) s.world).2.subscribed =
                s.world.subscribed ++ [(cstr c).val] := by
              simp only [exec, execWith, hdata, ↓reduceIte]
            change (cstr c).val ∈ (exec (.subscribe c) s.world).2.subscribed.drop mark
            rw [hpass]
            exact mem_drop_append hmark (.inr (List.mem_singleton_self _))
          · exact .inr (.inr ⟨j, trivial, self', line, _, Function.update_self ..,
              hrest _ (answer_exec o _)⟩)
    · exact hother j hj self line p hbusy hp

omit [DecidableEq ι] in
/-- The thread that has armed an alert passes its contract afterwards, unless it has run a
MODIFY_TIME. -/
theorem subscribes_of_arms {o : Call} {k : o.Ans → Handler} (hnode : SubscribesAfter o k)
    {r : AlertRecord} {a : o.Ans} (harms : Arms r o a) :
    Subscribes r.contract (k a) ∨ ∃ id uid c time, r.contract = cstr c ∧
      (.call o a : StepKind Call Call.Ans Reply) =
        .call (.modifyTimeAlert id uid c time) true := by
  cases harms with
  | addPrice hid _ hcontract => exact .inl (hcontract ▸ hnode _ hid)
  | addTime hid hcontract _ => exact .inl (hcontract ▸ hnode _ hid)
  | modifyPrice _ hcontract => exact .inl (hcontract ▸ hnode)
  | modifyTime hcontract _ => exact .inr ⟨_, _, _, _, hcontract, rfl⟩

theorem MarketOk.server_step (h : MarketOk s) (hstep : server.Step s.threads lbl c')
    (hmodify : ∀ id uid c time, lbl.kind = .call (.modifyTimeAlert id uid c time) true →
      ∀ mark, s.session = some mark → Covered s (· ≠ lbl.thread) mark (cstr c)) :
    MarketOk { s with threads := c' } := by
  refine ⟨fun mark hmark => ?_, fun mark hmark r hr hpending => ?_,
    h.keeps.step server_contract hstep,
    fun i self job p hi => hstep.everywhere serverCode_subscribes answer_exec h.nodes hi⟩
  · obtain ⟨hle, hdata⟩ := h.loggedIn mark hmark
    cases hstep with
    | start => exact ⟨hle, hdata⟩
    | finish => exact ⟨hle, hdata⟩
    | call i self job o k =>
        obtain ⟨hkept, more, hmore⟩ := exec_subscribed o s.world
        change mark ≤ (exec o s.world).2.subscribed.length ∧
          (exec o s.world).2.marketData = true
        rw [hkept, hmore, List.length_append]
        exact ⟨hle.trans (Nat.le_add_right _ _), hdata⟩
  · obtain ⟨hle, hdata⟩ := h.loggedIn mark hmark
    by_cases hold : r ∈ s.world.db.alerts.rows
    · exact covered_server (h.covered mark hmark r hold hpending) hle hdata hstep
    · have hstep' := hstep
      cases hstep with
      | start => exact absurd hr hold
      | finish => exact absurd hr hold
      | call i self job o k hbusy =>
          have harms : Arms r o (exec o s.world).1 := arms_of_new hr hpending hold
          obtain ⟨line, rfl⟩ :=
            line_of_arms (h.keeps.busy i self job _ hbusy).1 harms.arms
          rcases subscribes_of_arms (h.nodes i self _ _ hbusy).1 harms with
            hp | ⟨id, uid, c, time, hcontract, hkind⟩
          · exact .inr (.inr ⟨i, trivial, self, line, _, Function.update_self .., hp⟩)
          · rw [hcontract]
            exact covered_server (hmodify id uid c time hkind mark hmark) hle hdata hstep'

theorem MarketOk.step {s' : MarketSystem ι} {a : MarketAction ι}
    {t : List (MarketAction ι)}
    (h : MarketOk s) (hstep : MarketStep s a s') (hmodify : ModifiesSubscribed t s a) :
    MarketOk s' := by
  cases hstep with
  | server hnext =>
      exact h.server_step (System.step_of_next server hnext)
        fun id uid c time hkind mark =>
        hmodify _ _ _ rfl hnext id uid c time hkind mark
  | connect =>
      exact ⟨fun mark hmark => ⟨(h.loggedIn mark hmark).1, rfl⟩, h.covered,
        ⟨trivial, h.keeps.busy⟩, h.nodes⟩
  | login hdata hout hcallback =>
      refine ⟨fun mark hmark => ?_, fun mark _ r _ _ => .inr (.inl trivial),
        h.keeps, h.nodes⟩
      obtain rfl := Option.some.inj hmark
      exact ⟨Nat.le_refl _, hdata⟩
  | read hat =>
      refine ⟨h.loggedIn, fun mark hmark r hr hpending => .inr (.inl ?_),
        h.keeps, h.nodes⟩
      change r.contract ∈ s.world.db.getPendingContracts .none
      rw [AlertDB.getPendingContracts, Faults.none_query,
        List.mem_eraseDups, List.mem_map]
      exact ⟨r, List.mem_filter.mpr ⟨hr, decide_eq_true hpending⟩, rfl⟩
  | @pass contracts hat =>
      obtain ⟨hdb, hkept, more, hmore, hpassed⟩ := subscribeAll_spec s.world contracts
      refine ⟨fun mark hmark => ?_, fun mark hmark r hr hpending => ?_,
        ⟨trivial, h.keeps.busy⟩, h.nodes⟩
      · obtain ⟨hle, hdata⟩ := h.loggedIn mark hmark
        change mark ≤ (s.world.subscribeAll contracts).subscribed.length ∧
          (s.world.subscribeAll contracts).marketData = true
        rw [hkept, hmore, List.length_append]
        exact ⟨hle.trans (Nat.le_add_right _ _), hdata⟩
      · obtain ⟨hle, hdata⟩ := h.loggedIn mark hmark
        change r ∈ (s.world.subscribeAll contracts).db.alerts.rows at hr
        rw [hdb] at hr
        have hin : r.contract.val ∈ s.world.subscribed.drop mark ∨ r.contract.val ∈ more →
            Covered { s.setWorld (s.world.subscribeAll contracts) with
              callback := .returned }
              (fun _ => True) mark r.contract := fun hor => by
          refine .inl ?_
          change r.contract.val ∈ (s.world.subscribeAll contracts).subscribed.drop mark
          rw [hmore]
          exact mem_drop_append hle hor
        rcases h.covered mark hmark r hr hpending with hold | hcallback | hthread
        · exact hin (.inl hold)
        · rw [hat] at hcallback
          exact hin (.inr (hpassed hdata _ hcallback))
        · exact .inr (.inr hthread)
  | disconnect => exact ⟨nofun, nofun, h.keeps, h.nodes⟩

end Steps

/-! ## Subscriptions when no command is in progress -/

/-- If the market-data session is logged in and `OnRspUserLogin` has returned, the
contract of every pending alert has been passed to `SubscribeMarketData` since the
login. -/
def Subscribed (s : MarketSystem ι) : Prop :=
  ∀ mark, s.session = some mark → s.callback = .returned →
    ∀ r ∈ s.world.db.alerts.rows, r.status = 0 →
      r.contract.val ∈ s.world.subscribed.drop mark

/-- Before the front is connected. -/
def MarketSystem.start (w₀ : World) (memory : ι → Session) : MarketSystem ι :=
  ⟨System.idleAt w₀ memory, none, .returned⟩

theorem marketOk_start (w₀ : World) (memory : ι → Session) :
    MarketOk (MarketSystem.start w₀ memory) where
  loggedIn := nofun
  covered := nofun
  keeps := System.keeps_idleAt trivial
  nodes _ _ _ _ h := by cases h

/-- If each MODIFY_TIME of the run goes to a contract that is subscribed or about to be,
the contracts of all pending alerts are subscribed whenever no command is in progress. -/
theorem subscribed_of_run [DecidableEq ι] {w₀ : World} {memory : ι → Session}
    {t : List (MarketAction ι)} {s : MarketSystem ι}
    (h : market.Run ModifiesSubscribed (.start w₀ memory) t s)
    (hidle : ∀ i self line p, s.threads.thread i ≠ .busy self (.line line) p) :
    Subscribed s := by
  have hok : MarketOk s := by
    clear hidle
    induction h with
    | nil => exact marketOk_start w₀ memory
    | snoc _ hnext hmodify ih => exact ih.step (step_of_market hnext) hmodify
  intro mark hmark hreturned r hr hpending
  rcases hok.covered mark hmark r hr hpending with hpassed | hcallback
    | ⟨j, -, self, line, p, hbusy, -⟩
  · exact hpassed
  · rw [hreturned] at hcallback
    exact hcallback.elim
  · exact absurd hbusy (hidle j self line p)

/-- The market-data session logs in, and on a new connection ann adds a time alert for
rb2510. She sends one more line, and the server answers it in `steps` steps. -/
def annMovesAlert (line : String) (steps : ℕ) : List (MarketAction (Fin 1)) :=
  let commands : List (Choice (Fin 1) Job) :=
    [Choice.start 0 (Job.connect 7), Choice.step 0] ++
    Choice.start 0 (Job.line (ascii "REGISTER ann pw a@b")) :: List.replicate 2
      (Choice.step 0) ++
    Choice.start 0 (Job.line (ascii "LOGIN ann pw")) :: List.replicate 3
      (Choice.step 0) ++
    Choice.start 0 (Job.line (ascii "ADD_TIME ann rb2510 09:30:00")) ::
      List.replicate 3 (Choice.step 0) ++
    Choice.start 0 (Job.line (ascii line)) :: List.replicate steps (Choice.step 0)
  [.connect, .login, .callback, .callback] ++ commands.map .server

/-- Every MODIFY_TIME goes to a contract that has been passed since the login. -/
def movesWithin [DecidableEq ι] (s : MarketSystem ι) : MarketAction ι → Bool
  | .server choice =>
      match server.next s.threads choice, s.session with
      | some (⟨_, _, _, .call (.modifyTimeAlert _ _ c _) _⟩, _), some mark =>
          (cstr c).val ∈ s.world.subscribed.drop mark
      | _, _ => true
  | _ => true

theorem modifiesSubscribed_of_movesWithin [DecidableEq ι] {t : List (MarketAction ι)}
    {s : MarketSystem ι} {a : MarketAction ι} (h : movesWithin s a) :
    ModifiesSubscribed t s a := by
  rintro choice ⟨i, self, job, kind⟩ c' rfl hnext id uid c time rfl mark hmark
  simp only [movesWithin, hnext, hmark] at h
  exact .inl (of_decide_eq_true h)

set_option maxRecDepth 10000 in
/-- The alert moves to another time of its contract. -/
theorem moved_alert_is_subscribed :
    ∃ t s, market.Run ModifiesSubscribed (.start newWorld fun _ : Fin 1 => .new 0) t s ∧
      s.session = some 0 ∧ s.world.db.alerts.rows.map (·.triggerTime.val) =
        [ascii "10:00:00"] ∧ Subscribed s := by
  have hstate : (market.followIf (fun _ => movesWithin) []
      (.start newWorld fun _ : Fin 1 => .new 0)
      (annMovesAlert "MODIFY_TIME 1 rb2510 10:00:00" 5)).map (fun s =>
        ((s.threads.thread 0).isIdle, s.session,
          s.world.db.alerts.rows.map (·.triggerTime.val))) =
      some (true, some 0, [ascii "10:00:00"]) := by decide +kernel
  obtain ⟨s, hfollow, hends⟩ := Option.map_eq_some_iff.mp hstate
  simp only [Prod.mk.injEq] at hends
  obtain ⟨hidle, hsession, htime⟩ := hends
  have hrun : market.Run ModifiesSubscribed _ _ s :=
    (Machine.Run.followIf_append .nil hfollow).mono
      fun _ _ _ => modifiesSubscribed_of_movesWithin
  refine ⟨_, s, hrun, hsession, htime,
    subscribed_of_run hrun fun i self line p hbusy => ?_⟩
  rw [Fin.fin_one_eq_zero i] at hbusy
  rw [hbusy] at hidle
  exact absurd hidle Bool.false_ne_true

set_option maxRecDepth 10000 in
/-- The alert moves to another contract. It is answered OK, and nothing subscribes the
contract. -/
theorem moved_alert_is_not_subscribed :
    ∃ t s, market.AnyRun (.start newWorld fun _ : Fin 1 => .new 0) t s ∧
      (∀ i, (s.threads.thread i).isIdle) ∧ ¬ Subscribed s := by
  have hstate : (market.follow (.start newWorld fun _ : Fin 1 => .new 0)
      (annMovesAlert "MODIFY_TIME 1 cu2512 09:30:00" 5)).map (fun s =>
        ((s.threads.thread 0).isIdle, s.session, decide (s.callback = .returned),
          s.world.db.alerts.rows.any fun r =>
            r.status = 0 ∧ r.contract.val ∉ s.world.subscribed)) =
      some (true, some 0, true, true) := by decide +kernel
  obtain ⟨s, hfollow, hends⟩ := Option.map_eq_some_iff.mp hstate
  simp only [Prod.mk.injEq] at hends
  obtain ⟨hidle, hsession, hreturned, hrows⟩ := hends
  refine ⟨_, s, Machine.run_of_follow hfollow, fun i => ?_, fun hall => ?_⟩
  · rw [Fin.fin_one_eq_zero i]
    exact hidle
  · obtain ⟨r, hr, hrow⟩ := List.any_eq_true.mp hrows
    obtain ⟨hpending, hmissing⟩ := of_decide_eq_true hrow
    exact hmissing (hall 0 hsession (of_decide_eq_true hreturned) r hr hpending)

end CloudAlert
