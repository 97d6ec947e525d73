import CloudAlert.Concurrent.Arming
import CloudAlert.Engine.Coherence

/-!
# The order of cache refreshes

A refresh reads the table contract by contract and then swaps the whole map in, each in a
step of its own. Two refreshes can swap in the opposite order of their reads, and a tick
can remove the entry of an alert that was modified after its trigger; the alert is then
pending in the table and never evaluated (`second_alert_is_lost`).

`SwapsInOrder` excludes these two orders of writes, queries, swaps and removals. A run
without them loses no entry (`dropsNone_of_inOrder`), and the cache has every pending
price alert whenever the server is idle (`allCached_of_run`).
-/

namespace CloudAlert

open Program

/-! ## What the cache evaluates -/

/-- The cache holds the alert under its current contract, with its current price and
condition. -/
def PriceAlertCache.has (cache : PriceAlertCache) (r : AlertRecord) : Bool :=
  (cache.at r.contract).any fun rec =>
    rec.id = r.id ∧ rec.triggerPrice = r.triggerPrice ∧ rec.condition = r.condition

/-- The cache has every pending price alert of the table. -/
def AllCached (w : World) : Prop :=
  ∀ r ∈ w.db.alerts.rows, AlertDB.pendingPrice r → w.priceAlertCache.has r

/-- The cache after a call. -/
def Call.cacheAfter (cache : PriceAlertCache) : Call → PriceAlertCache
  | .swapCache next => next
  | .removeCached alertId => cache.remove alertId
  | _ => cache

theorem exec_priceAlertCache (c : Call) (w : World) :
    (exec c w).2.priceAlertCache = c.cacheAfter w.priceAlertCache := by
  cases c with
  | unregisterSocket =>
      simp only [exec, execWith]
      split <;> rfl
  | subscribe =>
      simp only [exec, execWith]
      split <;> rfl
  | _ => rfl

theorem has_of_mem {cache : PriceAlertCache} {r : AlertRecord}
    (h : r ∈ cache.at r.contract) : cache.has r :=
  List.any_eq_true.mpr ⟨r, h, decide_eq_true ⟨rfl, rfl, rfl⟩⟩

theorem Coherent.allCached {w : World} (h : Coherent w) : AllCached w := by
  intro r hr hpending
  refine has_of_mem ?_
  rw [h r.contract, AlertDB.getPendingPriceAlerts_none, Table.mem_select]
  exact ⟨hr, decide_eq_true ⟨hpending, rfl⟩⟩

/-- The refresh of the start-up leaves a complete cache. -/
theorem allCached_startUp (w : World) :
    AllCached (run exec refreshPriceAlertCache w).2 := (coherent_refresh w).allCached

/-! ## Refreshes that are still to read an alert -/

/-- The answers of the queries of a refresh while the pending price alert `r` is in the
table. -/
def Sees (r : AlertRecord) : (c : Call) → c.Ans → Prop
  | .getPendingContracts, contracts => r.contract ∈ contracts
  | .getPendingPriceAlerts c, records => c = r.contract → r ∈ records
  | _, _ => True

theorem sees_exec {w : World} {r : AlertRecord} (hr : r ∈ w.db.alerts.rows)
    (hpending : AlertDB.pendingPrice r) (c : Call) : Sees r c (exec c w).1 := by
  cases c with
  | getPendingContracts =>
      change r.contract ∈ w.db.getPendingContracts .none
      rw [AlertDB.getPendingContracts, Faults.none_query,
        List.mem_eraseDups, List.mem_map]
      exact ⟨r, List.mem_filter.mpr ⟨hr, decide_eq_true (of_decide_eq_true hpending).1⟩,
        rfl⟩
  | getPendingPriceAlerts c =>
      rintro rfl
      change r ∈ w.db.getPendingPriceAlerts .none r.contract
      rw [AlertDB.getPendingPriceAlerts_none, Table.mem_select]
      exact ⟨hr, decide_eq_true ⟨hpending, rfl⟩⟩
  | _ => trivial

/-- The code will put the alert into the cache, if nothing happens to its row before. -/
def Restores {α : Type} (r : AlertRecord) (p : Action α) : Prop :=
  p.Leads (Sees r) fun c => ∃ next, c = .swapCache next ∧ next.has r

/-- The loop of a refresh puts in what it sees. -/
theorem refreshLoop_sees {pre : Call → Prop} {post : (c : Call) → c.Ans → Prop}
    {r : AlertRecord} (hpre : ∀ c, pre (.getPendingPriceAlerts c))
    (hpost : ∀ c a, post c a → Sees r c a) (contracts : List Text)
    {next : PriceAlertCache} (h : r.contract ∈ contracts ∨ next.has r) :
    (refreshLoop contracts next).Respects pre post fun next => next.has r := by
  induction contracts generalizing next with
  | nil => exact h.resolve_left (List.not_mem_nil)
  | cons c rest ih =>
      refine ⟨hpre c, fun records hrecords => ?_⟩
      have hsees : c = r.contract → r ∈ records := hpost _ _ hrecords
      change Respects _ _ _ (if records ≠ [] then _ else _)
      by_cases hc : c = r.contract
      · subst hc
        have hmem := hsees rfl
        rw [if_pos (List.ne_nil_of_mem hmem)]
        refine ih (.inr (has_of_mem ?_))
        simpa [PriceAlertCache.at] using hmem
      · have hrest : r.contract ∈ rest ∨ next.has r :=
          h.imp (fun hmem => List.mem_of_ne_of_mem (Ne.symm hc) hmem) id
        split
        · refine ih (hrest.imp id fun hhas => ?_)
          simpa only [PriceAlertCache.has, PriceAlertCache.at,
            Function.update_of_ne (Ne.symm hc)] using hhas
        · exact ih hrest

theorem refresh_restores (r : AlertRecord) : Restores r refreshPriceAlertCache := by
  refine .inr fun contracts hcontracts => ?_
  have hloop : (refreshLoop contracts fun _ => none).Respects (fun _ => True) (Sees r)
      fun next => next.has r :=
    refreshLoop_sees (fun _ => trivial) (fun _ _ h => h) contracts (.inl hcontracts)
  exact hloop.leads_bind fun next hnext => .inl ⟨next, rfl, hnext⟩

/-! ## Maps that have an alert -/

/-- As long as its queries see the alert, the code swaps in only maps that have it. -/
def SwapsIn {α : Type} (r : AlertRecord) (p : Action α) : Prop :=
  p.Respects (fun c => ∀ next, c = .swapCache next → next.has r)
    (fun c a => Answer c a ∧ Sees r c a) fun _ => True

/-- After it has seen the alert, the code swaps in only maps that have it. -/
def SwapsAfterQuery : (c : Call) → (c.Ans → Handler) → Prop
  | .getPendingPriceAlerts c, k => ∀ (r : AlertRecord) (records : List AlertRecord),
      Answer (.getPendingPriceAlerts c) records → r.contract = c → r ∈ records →
        SwapsIn r (k records)
  | _, _ => True

/-- A map that is swapped in has what its refresh has seen. -/
structure SwapsSeen (p : Handler) : Prop where
  swapsIn : ∀ r, SwapsIn r p
  afterQuery : p.Everywhere Answer SwapsAfterQuery

/-- Calls that a refresh alone makes. -/
def Call.inRefresh : Call → Prop
  | .getPendingPriceAlerts _ | .swapCache _ => True
  | _ => False

section SwapsSeen

variable {pre : Call → Prop} {fin : Session × Reply → Prop} {p : Handler}

theorem swapsIn_of_none (hp : p.Respects pre Answer fin)
    (hpre : ∀ next, ¬ pre (.swapCache next)) (r : AlertRecord) : SwapsIn r p :=
  hp.mono (fun _ hc next heq => absurd (heq ▸ hc) (hpre next)) (fun _ _ _ h => h.1)
    fun _ _ => trivial

theorem swapsSeen_of_none (hp : p.Respects pre Answer fin)
    (hpre : ∀ next, ¬ pre (.swapCache next)) : SwapsSeen p := by
  refine ⟨swapsIn_of_none hp hpre, ?_⟩
  induction p with
  | ret a => trivial
  | call c k ih =>
      refine ⟨?_, fun a ha => ih a (hp.2 a ha)⟩
      cases c with
      | getPendingPriceAlerts c =>
          exact fun r records ha _ _ => swapsIn_of_none (hp.2 records ha) hpre r
      | _ => trivial

theorem swapsSeen_ret (out : Session × Reply) : SwapsSeen (.ret out) :=
  ⟨fun _ => trivial, trivial⟩

theorem swapsSeen_ask {c : Call} {k : c.Ans → Handler} (hc : ¬ c.inRefresh)
    (hk : ∀ a, SwapsSeen (k a)) : SwapsSeen (ask c >>= k) := by
  refine ⟨fun r => ⟨?_, fun a _ => (hk a).swapsIn r⟩, ?_, fun a _ => (hk a).afterQuery⟩
  · rintro next rfl
    exact absurd trivial hc
  · cases c with
    | getPendingPriceAlerts => exact absurd trivial hc
    | _ => trivial

theorem swapsSeen_refreshLoop {f : PriceAlertCache → Handler}
    (hf : ∀ next, (f next).Everywhere Answer SwapsAfterQuery)
    (hswaps : ∀ r next, next.has r → SwapsIn r (f next)) (contracts : List Text)
    (next : PriceAlertCache) :
    (refreshLoop contracts next >>= f).Everywhere Answer SwapsAfterQuery := by
  induction contracts generalizing next with
  | nil => exact hf next
  | cons c rest ih =>
      refine ⟨?_, fun records _ => ?_⟩
      · rintro r records - rfl hr
        change SwapsIn r ((if records ≠ [] then _ else _) >>= f)
        rw [if_pos (List.ne_nil_of_mem hr)]
        refine (refreshLoop_sees (fun _ _ heq => Call.noConfusion heq)
          (fun _ _ h => h.2) rest
          (.inr (has_of_mem ?_))).bind fun next hnext => hswaps r next hnext
        simpa [PriceAlertCache.at] using hr
      · change Everywhere _ _ ((if records ≠ [] then _ else _) >>= f)
        split
        · exact ih _
        · exact ih _

theorem swapsSeen_refresh {k : Unit → Handler} (hk : SwapsSeen (k ())) :
    SwapsSeen (refreshPriceAlertCache >>= k) := by
  constructor
  · refine fun r => ⟨fun next heq => Call.noConfusion heq, fun contracts hcontracts => ?_⟩
    change SwapsIn r (refreshLoop contracts _ >>= _ >>= k)
    rw [bind_bind]
    refine (refreshLoop_sees (fun _ _ heq => Call.noConfusion heq)
      (fun _ _ h => h.2) contracts (.inl hcontracts.2)).bind fun next hnext => ?_
    refine ⟨fun next' heq => ?_, fun _ _ => hk.swapsIn r⟩
    obtain rfl := Call.swapCache.inj heq
    exact hnext
  · refine ⟨trivial, fun contracts _ => ?_⟩
    change Everywhere _ _ (refreshLoop contracts _ >>= _ >>= k)
    rw [bind_bind]
    refine swapsSeen_refreshLoop (fun next => ?_) (fun r next hnext => ?_) contracts _
    · exact ⟨trivial, fun _ _ => hk.afterQuery⟩
    · refine ⟨fun next' heq => ?_, fun _ _ => hk.swapsIn r⟩
      obtain rfl := Call.swapCache.inj heq
      exact hnext

variable {self : Session} {line : Bytes}

theorem handleAddPrice_swapsSeen : SwapsSeen (handleAddPrice self line) := by
  unfold handleAddPrice
  split
  · exact swapsSeen_ret _
  · split
    · split
      · exact swapsSeen_ret _
      · refine swapsSeen_ask id fun alertId => ?_
        change SwapsSeen (if alertId < 0 then _ else _)
        split
        · exact swapsSeen_ret _
        · exact swapsSeen_refresh (swapsSeen_ask id fun _ => swapsSeen_ret _)
    · exact swapsSeen_ret _

theorem handleDelete_swapsSeen : SwapsSeen (handleDelete self line) := by
  unfold handleDelete
  split
  · exact swapsSeen_ret _
  · split
    · refine swapsSeen_ask id fun ok => ?_
      change SwapsSeen (if ok = true then _ else _)
      split
      · exact swapsSeen_refresh (swapsSeen_ret _)
      · exact swapsSeen_ret _
    · exact swapsSeen_ret _

theorem handleModifyPrice_swapsSeen : SwapsSeen (handleModifyPrice self line) := by
  unfold handleModifyPrice
  split
  · exact swapsSeen_ret _
  · split
    · split
      · exact swapsSeen_ret _
      · refine swapsSeen_ask id fun ok => ?_
        change SwapsSeen (if ok = true then _ else _)
        split
        · exact swapsSeen_refresh (swapsSeen_ask id fun _ => swapsSeen_ret _)
        · exact swapsSeen_ret _
    · exact swapsSeen_ret _

theorem handleModifyTime_swapsSeen : SwapsSeen (handleModifyTime self line) := by
  unfold handleModifyTime
  split
  · exact swapsSeen_ret _
  · split
    · refine swapsSeen_ask id fun ok => ?_
      change SwapsSeen (if ok = true then _ else _)
      split
      · exact swapsSeen_refresh (swapsSeen_ret _)
      · exact swapsSeen_ret _
    · exact swapsSeen_ret _

theorem dispatch_swapsSeen (self : Session) (line : Bytes) :
    SwapsSeen (dispatch self line) := by
  by_cases hrefresh : commandWord line ∈ refreshWords
  · simp only [refreshWords, List.mem_cons, List.not_mem_nil, or_false] at hrefresh
    rcases hrefresh with h | h | h | h
    · rw [dispatch_addPrice h]
      exact handleAddPrice_swapsSeen
    · rw [dispatch_delete h]
      exact handleDelete_swapsSeen
    · rw [dispatch_modifyPrice h]
      exact handleModifyPrice_swapsSeen
    · rw [dispatch_modifyTime h]
      exact handleModifyTime_swapsSeen
  · exact swapsSeen_of_none (dispatch_ok self line) fun _ hc => hrefresh hc.1

theorem serverCode_swapsSeen (job : Job) (self : Session) :
    SwapsSeen (serverCode job self) := by
  cases job with
  | startUp => exact swapsSeen_refresh (swapsSeen_ret _)
  | line line => exact dispatch_swapsSeen self line
  | connect => exact swapsSeen_ret _
  | disconnect =>
      exact swapsSeen_of_none (server_contract.code .disconnect self) fun _ hc => hc
  | tick contract p =>
      exact swapsSeen_of_none (server_contract.code (.tick contract p) self) fun _ hc =>
        hc
  | timer hms =>
      exact swapsSeen_of_none (server_contract.code (.timer hms) self) fun _ hc => hc

end SwapsSeen

/-- After its table write, a handler that adds or modifies a price alert refreshes the
cache. -/
def RefreshesAfter : (c : Call) → (c.Ans → Handler) → Prop
  | .addPriceAlert _ _ _ _, k =>
      ∀ id : ℤ, 0 ≤ id → ∀ r, Restores r (k id) ∧ SwapsIn r (k id)
  | .modifyPriceAlert _ _ _ _ _, k => ∀ r, Restores r (k true) ∧ SwapsIn r (k true)
  | _, _ => True

abbrev Refreshes (p : Handler) : Prop := p.Everywhere Answer RefreshesAfter

theorem refreshesAfter_quiet (c : Call) (k : c.Ans → Handler) (h : ¬ c.arms) :
    RefreshesAfter c k := by
  cases c <;> first | trivial | exact absurd trivial h

theorem handleAddPrice_refreshes (self : Session) (line : Bytes) :
    Refreshes (handleAddPrice self line) := by
  unfold handleAddPrice
  split
  · trivial
  · split
    · split
      · trivial
      · refine ⟨fun id hid r => ?_,
          fun id _ => everywhere_of_decided refreshesAfter_quiet ?_⟩
        · change Restores r (if id < 0 then _ else _) ∧
            SwapsIn r (if id < 0 then _ else _)
          rw [if_neg (not_lt.mpr hid)]
          refine ⟨(refresh_restores r).bind _, (swapsSeen_refresh ?_).swapsIn r⟩
          exact swapsSeen_ask (fun h => h) fun _ => swapsSeen_ret _
        · exact decided_ite (decided_ret _)
            (decided_refresh (decided_subscribe (decided_ret _)))
    · trivial

theorem handleModifyPrice_refreshes (self : Session) (line : Bytes) :
    Refreshes (handleModifyPrice self line) := by
  unfold handleModifyPrice
  split
  · trivial
  · split
    · split
      · trivial
      · refine ⟨fun r => ?_, fun ok _ => everywhere_of_decided refreshesAfter_quiet ?_⟩
        · change Restores r (refreshPriceAlertCache >>= _) ∧
            SwapsIn r (refreshPriceAlertCache >>= _)
          refine ⟨(refresh_restores r).bind _, (swapsSeen_refresh ?_).swapsIn r⟩
          exact swapsSeen_ask (fun h => h) fun _ => swapsSeen_ret _
        · exact decided_ite (decided_refresh (decided_subscribe (decided_ret _)))
            (decided_ret _)
    · trivial

theorem dispatch_refreshes (self : Session) (line : Bytes) :
    Refreshes (dispatch self line) := by
  refine dispatch_everywhere refreshesAfter_quiet self line
    (fun _ => handleAddPrice_refreshes self line) (fun h => ?_)
    (fun _ => handleModifyPrice_refreshes self line) fun h => ?_
  · refine (handleAddTime_ok h).everywhere fun c k hc => ?_
    cases c with
    | addPriceAlert => exact absurd (h.symm.trans hc.1) (by decide)
    | modifyPriceAlert => exact absurd (h.symm.trans hc.1) (by decide)
    | _ => trivial
  · refine (handleModifyTime_ok h).everywhere fun c k hc => ?_
    cases c with
    | addPriceAlert => exact absurd (h.symm.trans hc.1) (by decide)
    | modifyPriceAlert => exact absurd (h.symm.trans hc.1) (by decide)
    | _ => trivial

theorem serverCode_refreshes (job : Job) (self : Session) :
    Refreshes (serverCode job self) :=
  serverCode_everywhere refreshesAfter_quiet job self (dispatch_refreshes self)

/-! ## The order of writes, queries and swaps -/

/-- ADD_PRICE or MODIFY_PRICE has written the alert. -/
def Call.writes (alertId : ℤ) : (c : Call) → c.Ans → Bool
  | .addPriceAlert _ _ _ _, (id : ℤ) => id = alertId
  | .modifyPriceAlert id _ _ _ _, ok => ok && id = alertId
  | _, _ => false

def Call.swaps : (c : Call) → c.Ans → Bool
  | .swapCache _, _ => true
  | _, _ => false

def Call.queries (contract : Text) : (c : Call) → c.Ans → Bool
  | .getPendingPriceAlerts c, _ => c = contract
  | _, _ => false

/-- `RemoveCachedPriceAlert` of the alert. -/
def Call.removes (alertId : ℤ) : (c : Call) → c.Ans → Bool
  | .removeCached id, _ => id = alertId
  | _, _ => false

section Order

variable {ι : Type*}

def nextWrite (alertId : ℤ) (last : Option (ι × List (ServerStep ι)))
    (lbl : ServerStep ι) : Option (ι × List (ServerStep ι)) :=
  if lbl.does (Call.writes alertId) then some (lbl.thread, [])
  else last.map fun out => (out.1, out.2 ++ [lbl])

/-- The thread that has written the alert last, and what has happened since. -/
def lastWrite (alertId : ℤ) (t : List (ServerStep ι)) :
    Option (ι × List (ServerStep ι)) :=
  t.foldl (nextWrite alertId) none

theorem lastWrite_concat (alertId : ℤ) (t : List (ServerStep ι)) (lbl : ServerStep ι) :
    lastWrite alertId (t ++ [lbl]) = nextWrite alertId (lastWrite alertId t) lbl :=
  List.foldl_concat ..

variable [DecidableEq ι]

/-- The thread has swapped a map in. -/
def swappedBy (i : ι) (since : List (ServerStep ι)) : Bool :=
  since.any fun lbl => lbl.thread = i && lbl.does Call.swaps

/-- The thread has queried the contract. -/
def queriedBy (i : ι) (contract : Text) (since : List (ServerStep ι)) : Bool :=
  since.any fun lbl => lbl.thread = i && lbl.does (Call.queries contract)

/-- The thread that has written the alert last has still to swap its map in. -/
def swapAhead (alertId : ℤ) (t : List (ServerStep ι)) : Bool :=
  (lastWrite alertId t).any fun out => !swappedBy out.1 out.2

/-- The thread that has written the alert last has swapped its map in, and `i` has not
queried the contract since the write. -/
def overtaken (i : ι) (r : AlertRecord) (t : List (ServerStep ι)) : Bool :=
  (lastWrite r.id t).any fun out => swappedBy out.1 out.2 && !queriedBy i r.contract out.2

/-- No refresh swaps after another one has overtaken it, and no check removes an alert
that has been written again and whose map has been swapped in. -/
def SwapsInOrder (t : List (ServerStep ι)) (c : Threads ι) (lbl : ServerStep ι) : Prop :=
  ∀ r ∈ c.shared.db.alerts.rows, AlertDB.pendingPrice r →
    (lbl.does Call.swaps → ¬ overtaken lbl.thread r t) ∧
      (lbl.does (Call.removes r.id) → swapAhead r.id t)

instance (t : List (ServerStep ι)) (c : Threads ι) (lbl : ServerStep ι) :
    Decidable (SwapsInOrder t c lbl) :=
  inferInstanceAs (Decidable (∀ r ∈ c.shared.db.alerts.rows, AlertDB.pendingPrice r →
    (lbl.does Call.swaps → ¬ overtaken lbl.thread r t) ∧
      (lbl.does (Call.removes r.id) → swapAhead r.id t)))

end Order

theorem writes_of_arms {r : AlertRecord} {c : Call} {a : c.Ans} (h : Arms r c a)
    (hprice : r.alertType = 0) : c.writes r.id a := by
  cases h with
  | addPrice _ hrow => exact decide_eq_true hrow.symm
  | modifyPrice hrow => exact decide_eq_true hrow.symm
  | addTime _ _ htype => exact absurd (hprice.symm.trans htype) zero_ne_one
  | modifyTime _ htype => exact absurd (hprice.symm.trans htype) zero_ne_one

theorem arms_of_writes {alertId : ℤ} {c : Call} {a : c.Ans} (h : c.writes alertId a) :
    c.arms := by
  cases c with
  | addPriceAlert | modifyPriceAlert => trivial
  | _ => cases h

/-- What follows the write of an alert puts it into the cache. -/
theorem restores_of_writes {c : Call} {k : c.Ans → Handler} {w : World} {alertId : ℤ}
    (hnode : RefreshesAfter c k) (h : c.writes alertId (exec c w).1) (r : AlertRecord) :
    Restores r (k (exec c w).1) ∧ SwapsIn r (k (exec c w).1) := by
  cases c with
  | addPriceAlert uid contract p cond =>
      have hseq := w.db.alerts.seq_nonneg
      have hid : 0 ≤ w.db.alerts.seq + 1 := by omega
      exact hnode _ hid r
  | modifyPriceAlert id uid contract p cond =>
      have hok : (exec (.modifyPriceAlert id uid contract p cond) w).1 = true :=
        (Bool.and_eq_true_iff.mp h).1
      rw [hok]
      exact hnode r
  | _ => cases h

/-- What the order of the steps so far means for what the threads have still to do. -/
structure RefreshesOk {ι : Type*} [DecidableEq ι] (t : List (ServerStep ι))
    (c : Threads ι) : Prop where
  seen : ∀ r ∈ c.shared.db.alerts.rows, AlertDB.pendingPrice r → ∀ i self job p,
    c.thread i = .busy self job p → (∀ out, lastWrite r.id t = some out →
      i = out.1 ∨ queriedBy i r.contract out.2) → SwapsIn r p
  ahead : ∀ r ∈ c.shared.db.alerts.rows, AlertDB.pendingPrice r → ∀ out,
    lastWrite r.id t = some out → swappedBy out.1 out.2 = false →
      ∃ self line p, c.thread out.1 = .busy self (.line line) p ∧ Restores r p

section OrderStep

variable {ι : Type*} [DecidableEq ι] {t : List (ServerStep ι)} {c c' : Threads ι}
  {lbl : ServerStep ι} {r : AlertRecord}

theorem RefreshesOk.written (hstep : server.Step c lbl c') (hjobs : KeepsJobs c)
    (hnodes : ∀ i self job p, c.thread i = .busy self job p → Refreshes p)
    (h : lbl.does (Call.writes r.id)) :
    ∃ self line p, c'.thread lbl.thread = .busy self (.line line) p ∧ Restores r p ∧
      SwapsIn r p := by
  cases hstep with
  | start | finish => cases h
  | call i self job o k hcall =>
      obtain ⟨line, rfl⟩ :=
        line_of_arms (hjobs.busy i self job _ hcall).1 (arms_of_writes h)
      exact ⟨self, line, _, Function.update_self ..,
        restores_of_writes (hnodes i self _ _ hcall).1 h r⟩

theorem mem_of_not_writes (hstep : server.Step c lbl c')
    (hr : r ∈ c'.shared.db.alerts.rows)
    (hpending : AlertDB.pendingPrice r) (h : ¬ lbl.does (Call.writes r.id)) :
    r ∈ c.shared.db.alerts.rows := by
  cases hstep with
  | start | finish => exact hr
  | call i self job o k hcall =>
      by_contra hnew
      obtain ⟨hstatus, hprice⟩ := of_decide_eq_true hpending
      exact h (writes_of_arms (arms_of_new hr hstatus hnew) hprice)

theorem queriedBy_concat {i : ι} {contract : Text} {since : List (ServerStep ι)}
    (h : queriedBy i contract (since ++ [lbl])) :
    queriedBy i contract since ∨ i = lbl.thread ∧ lbl.does (Call.queries contract) := by
  rw [queriedBy, List.any_append, Bool.or_eq_true] at h
  refine h.imp id fun hlast => ?_
  rw [List.any_cons, List.any_nil, Bool.or_false, Bool.and_eq_true,
    decide_eq_true_eq] at hlast
  exact ⟨hlast.1.symm, hlast.2⟩

/-- A thread that has queried the contract swaps in the alert, whatever it has seen
before. -/
theorem RefreshesOk.seen_step (h : RefreshesOk t c) (hstep : server.Step c lbl c')
    (hqueries : ∀ i self job p, c.thread i = .busy self job p →
      p.Everywhere Answer SwapsAfterQuery)
    (hr : r ∈ c.shared.db.alerts.rows) (hpending : AlertDB.pendingPrice r) {i : ι}
    {self : Session} {job : Job} {p : Handler} (hbusy : c'.thread i = .busy self job p)
    (hseen : ∀ out, lastWrite r.id t = some out →
      i = out.1 ∨ queriedBy i r.contract (out.2 ++ [lbl])) : SwapsIn r p := by
  have hbefore : ∀ p, c.thread i = .busy self job p →
      ¬ (i = lbl.thread ∧ lbl.does (Call.queries r.contract)) → SwapsIn r p := by
    intro p hbusy hquiet
    refine h.seen r hr hpending i self job p hbusy fun out hout => ?_
    exact (hseen out hout).imp id fun hq => (queriedBy_concat hq).resolve_right hquiet
  rcases hstep.busy_inv hbusy with ⟨hne, hsame⟩ | ⟨-, -, rfl⟩ | ⟨o, k, rfl, hcall, rfl⟩
  · exact hbefore p hsame fun hquery => hne hquery.1
  · exact (serverCode_swapsSeen job self).swapsIn r
  · by_cases hquery : o.queries r.contract (exec o c.shared).1 = true
    · have hnode := (hqueries i self job _ hcall).1
      cases o with
      | getPendingPriceAlerts contract =>
          obtain rfl : contract = r.contract := of_decide_eq_true hquery
          have hsees : r.contract = r.contract → r ∈ _ :=
            sees_exec hr hpending (.getPendingPriceAlerts r.contract)
          exact hnode r _ (answer_exec _ c.shared) rfl (hsees rfl)
      | _ => cases hquery
    · exact (hbefore _ hcall fun h => hquery h.2).2 _
        ⟨answer_exec o c.shared, sees_exec hr hpending o⟩

/-- A thread that is to restore an alert goes on to do so, until it swaps. -/
theorem RefreshesOk.ahead_step (h : RefreshesOk t c) (hstep : server.Step c lbl c')
    (hr : r ∈ c.shared.db.alerts.rows) (hpending : AlertDB.pendingPrice r)
    {out : ι × List (ServerStep ι)} (hout : lastWrite r.id t = some out)
    (hahead : swappedBy out.1 (out.2 ++ [lbl]) = false) :
    ∃ self line p, c'.thread out.1 = .busy self (.line line) p ∧ Restores r p := by
  rw [swappedBy, List.any_append, Bool.or_eq_false_iff] at hahead
  obtain ⟨self, line, p, hbusy, hp⟩ := h.ahead r hr hpending out hout hahead.1
  by_cases hthread : out.1 = lbl.thread
  · cases hstep with
    | start i self' job hidle =>
        obtain rfl : out.1 = i := hthread
        cases hidle.symm.trans hbusy
    | finish i self' job self'' b hret =>
        obtain rfl : out.1 = i := hthread
        obtain ⟨-, -, rfl⟩ := Thread.busy.inj (hret.symm.trans hbusy)
        exact hp.elim
    | call i self' job o k hcall =>
        obtain rfl : out.1 = i := hthread
        obtain ⟨rfl, rfl, rfl⟩ := Thread.busy.inj (hcall.symm.trans hbusy)
        rcases hp with ⟨next, rfl, -⟩ | hrest
        · refine absurd hahead.2 ?_
          rw [List.any_cons, List.any_nil, Bool.or_false, Bool.not_eq_false,
            Bool.and_eq_true]
          exact ⟨decide_eq_true rfl, rfl⟩
        · exact ⟨self', line, _, Function.update_self ..,
            hrest _ (sees_exec hr hpending o)⟩
  · exact ⟨self, line, p, (hstep.thread_of_ne hthread).trans hbusy, hp⟩

theorem RefreshesOk.step (h : RefreshesOk t c) (hstep : server.Step c lbl c')
    (hjobs : KeepsJobs c)
    (hnodes : ∀ i self job p, c.thread i = .busy self job p → Refreshes p)
    (hqueries : ∀ i self job p, c.thread i = .busy self job p →
      p.Everywhere Answer SwapsAfterQuery) : RefreshesOk (t ++ [lbl]) c' := by
  constructor
  · intro r hr hpending i self job p hbusy hseen
    rw [lastWrite_concat, nextWrite] at hseen
    by_cases hwrites : lbl.does (Call.writes r.id) = true
    · rw [if_pos hwrites] at hseen
      obtain ⟨self', line, p', hbusy', -, hp'⟩ :=
        RefreshesOk.written hstep hjobs hnodes hwrites
      rcases hseen _ rfl with rfl | hnone
      · obtain ⟨-, -, rfl⟩ := Thread.busy.inj (hbusy.symm.trans hbusy')
        exact hp'
      · cases hnone
    · rw [if_neg hwrites] at hseen
      have hold := mem_of_not_writes hstep hr hpending hwrites
      refine h.seen_step hstep hqueries hold hpending hbusy fun out hout => ?_
      exact hseen (out.1, out.2 ++ [lbl]) (by rw [hout]; rfl)
  · intro r hr hpending out hout hahead
    rw [lastWrite_concat, nextWrite] at hout
    by_cases hwrites : lbl.does (Call.writes r.id) = true
    · rw [if_pos hwrites] at hout
      obtain rfl := Option.some.inj hout
      obtain ⟨self, line, p, hbusy, hp, -⟩ :=
        RefreshesOk.written hstep hjobs hnodes hwrites
      exact ⟨self, line, p, hbusy, hp⟩
    · rw [if_neg hwrites] at hout
      have hold := mem_of_not_writes hstep hr hpending hwrites
      obtain ⟨before, hbefore, rfl⟩ := Option.map_eq_some_iff.mp hout
      have hnow := h.ahead_step hstep hold hpending hbefore hahead
      exact hnow

end OrderStep

/-! ## Losing no alert -/

section

variable {ι : Type*}

/-- Another thread has still to put the alert into the cache. -/
def RestoredByOther (c : Threads ι) (i : ι) (r : AlertRecord) : Prop :=
  ∃ j, j ≠ i ∧ ∃ self job p, c.thread j = .busy self job p ∧ Restores r p

/-- The step takes no pending price alert out of the cache, unless another refresh
in progress will put it back. -/
def DropsNone (_t : List (ServerStep ι)) (c : Threads ι) (lbl : ServerStep ι) : Prop :=
  ∀ o a, lbl.kind = .call o a → ∀ r ∈ c.shared.db.alerts.rows, AlertDB.pendingPrice r →
    c.shared.priceAlertCache.has r →
      (o.cacheAfter c.shared.priceAlertCache).has r ∨ RestoredByOther c lbl.thread r

/-- Every pending price alert is in the cache or will be put there. -/
def CachedOrRestored (c : Threads ι) : Prop :=
  ∀ r ∈ c.shared.db.alerts.rows, AlertDB.pendingPrice r →
    c.shared.priceAlertCache.has r ∨
      ∃ i self job p, c.thread i = .busy self job p ∧ Restores r p

end

/-- A new or changed pending price alert comes from an ADD_PRICE or MODIFY_PRICE that
has still to refresh the cache. -/
theorem restores_of_new {c : Call} {k : c.Ans → Handler} {w : World}
    (hnode : RefreshesAfter c k) {r' : AlertRecord}
    (hr' : r' ∈ (exec c w).2.db.alerts.rows) (hpending : AlertDB.pendingPrice r')
    (hnew : r' ∉ w.db.alerts.rows) : Restores r' (k (exec c w).1) := by
  obtain ⟨hstatus, hprice⟩ := of_decide_eq_true hpending
  have harms := arms_of_new hr' hstatus hnew
  generalize (exec c w).1 = a at harms
  cases harms with
  | addPrice hid => exact (hnode _ hid r').1
  | addTime _ _ htime => exact absurd (hprice.symm.trans htime) zero_ne_one
  | modifyPrice => exact (hnode r').1
  | modifyTime _ htime => exact absurd (hprice.symm.trans htime) zero_ne_one

section Runs

variable {ι : Type*} [DecidableEq ι]
  {ok : List (ServerStep ι) → Threads ι → ServerStep ι → Prop}
  {w₀ : World} {memory : ι → Session} {t : List (ServerStep ι)} {c c' : Threads ι}
  {lbl : ServerStep ι}

/-- One step. A thread that is to restore an alert goes on to do so, as long as the row
stays as it is. -/
theorem CachedOrRestored.step (h : CachedOrRestored c) (hstep : server.Step c lbl c')
    (hnodes : ∀ i self job p, c.thread i = .busy self job p → Refreshes p)
    (hdrops : DropsNone t c lbl) : CachedOrRestored c' := by
  intro r hr hpending
  have hother : ∀ j, j ≠ lbl.thread → ∀ self job p, c.thread j = .busy self job p →
      Restores r p → ∃ j self job p, c'.thread j = .busy self job p ∧ Restores r p :=
    fun j hj self job p hbusy hp =>
      ⟨j, self, job, p, (hstep.thread_of_ne hj).trans hbusy, hp⟩
  cases hstep with
  | start i self job hidle =>
      rcases h r hr hpending with hhas | ⟨j, self', job', p, hbusy, hp⟩
      · exact .inl hhas
      · refine .inr (hother j ?_ self' job' p hbusy hp)
        rintro rfl
        exact absurd (hidle.symm.trans hbusy) nofun
  | finish i self job self' b hret =>
      rcases h r hr hpending with hhas | ⟨j, self'', job', p, hbusy, hp⟩
      · exact .inl hhas
      · refine .inr (hother j ?_ self'' job' p hbusy hp)
        rintro rfl
        obtain ⟨-, -, rfl⟩ := Thread.busy.inj (hret.symm.trans hbusy)
        exact hp
  | call i self job o k hcall =>
      have hcache := exec_priceAlertCache o c.shared
      by_cases hold : r ∈ c.shared.db.alerts.rows
      · rcases h r hold hpending with hhas | ⟨j, self', job', p, hbusy, hp⟩
        · rcases hdrops o _ rfl r hold hpending hhas with
            hkept | ⟨j, hj, self', job', p, hbusy, hp⟩
          · rw [← hcache] at hkept
            exact .inl hkept
          · exact .inr (hother j hj self' job' p hbusy hp)
        · by_cases hj : j = i
          · subst hj
            obtain ⟨rfl, rfl, rfl⟩ := Thread.busy.inj (hcall.symm.trans hbusy)
            rcases hp with ⟨next, rfl, hnext⟩ | hrest
            · exact .inl hnext
            · refine .inr ⟨j, self, job, _, Function.update_self .., ?_⟩
              exact hrest _ (sees_exec hold hpending o)
          · exact .inr (hother j hj self' job' p hbusy hp)
      · exact .inr ⟨i, self, job, _, Function.update_self ..,
          restores_of_new (hnodes i self job _ hcall).1 hr hpending hold⟩

omit [DecidableEq ι] in
theorem has_remove {cache : PriceAlertCache} {r : AlertRecord} {alertId : ℤ}
    (h : cache.has r) (hid : r.id ≠ alertId) : (cache.remove alertId).has r := by
  obtain ⟨rec, hrec, hsame⟩ := List.any_eq_true.mp h
  refine List.any_eq_true.mpr ⟨rec, ?_, hsame⟩
  rw [PriceAlertCache.at_remove]
  have hrecId : rec.id = r.id := (of_decide_eq_true hsame).1
  exact List.mem_filter.mpr ⟨hrec, decide_eq_true (hrecId ▸ hid)⟩

/-- Swaps and removals in order drop nothing. -/
theorem dropsNone_of_inOrder (h : RefreshesOk t c) (hjobs : KeepsJobs c)
    (hstep : server.Step c lbl c') (horder : SwapsInOrder t c lbl) :
    DropsNone t c lbl := by
  intro o a hkind r hr hpending hhas
  obtain ⟨hswap, hremove⟩ := horder r hr hpending
  cases hstep with
  | start | finish => cases hkind
  | call i self job o' k hcall =>
      obtain ⟨rfl, -⟩ := StepKind.call.inj hkind
      cases o' with
      | swapCache next =>
          by_cases hseen : ∀ out, lastWrite r.id t = some out →
              i = out.1 ∨ queriedBy i r.contract out.2
          · exact .inl ((h.seen r hr hpending i self job _ hcall hseen).1 next rfl)
          · -- the refresh has been overtaken unless the writer has still to swap
            push Not at hseen
            obtain ⟨out, hout, hother, hquery⟩ := hseen
            have hahead : swappedBy out.1 out.2 = false := by
              by_contra hswapped
              refine hswap rfl ?_
              rw [overtaken, hout, Option.any_some, eq_true_of_ne_false hswapped,
                Bool.eq_false_iff.mpr hquery]
              rfl
            obtain ⟨self', line, p, hbusy, hp⟩ := h.ahead r hr hpending out hout hahead
            exact .inr ⟨out.1, Ne.symm hother, self', _, p, hbusy, hp⟩
      | removeCached id =>
          by_cases hid : r.id = id
          · have hahead := hremove (decide_eq_true hid.symm)
            cases hout : lastWrite r.id t with
            | none =>
                rw [swapAhead, hout] at hahead
                cases hahead
            | some out =>
                rw [swapAhead, hout, Option.any_some, Bool.not_eq_true'] at hahead
                obtain ⟨self', line, p, hbusy, hp⟩ :=
                  h.ahead r hr hpending out hout hahead
                refine .inr ⟨out.1, fun heq => ?_, self', _, p, hbusy, hp⟩
                -- a check and no command makes this call
                obtain ⟨-, rfl, -⟩ := Thread.busy.inj (hcall.symm.trans (heq ▸ hbusy))
                exact (hjobs.busy i _ _ _ hcall).1
          · exact .inl (has_remove hhas hid)
      | _ => exact .inl hhas

/-- Once the start-up refresh is done: if the refreshes of the run swap in order, the
cache has every pending price alert whenever all threads are idle. -/
theorem allCached_of_run (h₀ : AllCached w₀)
    (h : server.Run SwapsInOrder (System.idleAt w₀ memory) t c)
    (hidle : ∀ i, (c.thread i).isIdle) : AllCached c.shared := by
  have hkept : CachedOrRestored c ∧ RefreshesOk t c := by
    clear hidle
    induction h with
    | nil =>
        refine ⟨fun r hr hpending => .inl (h₀ r hr hpending),
          fun r _ _ i self job p hbusy => ?_, fun r _ _ out hout => ?_⟩
        · cases hbusy
        · cases hout
    | @snoc t c a lbl c' hrun hnext horder ih =>
        have hstep := System.step_of_next server hnext
        have hjobs := run_keeps hrun
        have hnodes : ∀ i self job p, c.thread i = .busy self job p → Refreshes p :=
          fun i self job p => hrun.everywhere serverCode_refreshes answer_exec
        have hqueries : ∀ i self job p, c.thread i = .busy self job p →
            p.Everywhere Answer SwapsAfterQuery := fun i self job p =>
          hrun.everywhere (fun job self => (serverCode_swapsSeen job self).afterQuery)
            answer_exec
        exact ⟨ih.1.step hstep hnodes (dropsNone_of_inOrder ih.2 hjobs hstep horder),
          ih.2.step hstep hjobs hnodes hqueries⟩
  intro r hr hpending
  rcases hkept.1 r hr hpending with hhas | ⟨i, self, job, p, hbusy, -⟩
  · exact hhas
  · have hi := hidle i
    rw [hbusy] at hi
    cases hi

end Runs

set_option maxRecDepth 10000 in
/-- ann, who is logged in, adds an alert, and nothing else happens. -/
theorem added_alert_is_cached :
    ∃ t c, server.Run SwapsInOrder
        (System.idleAt newWorld fun _ : Fin 1 => ⟨7, 1, ascii "ann"⟩) t c ∧
      c.shared.db.alerts.rows ≠ [] ∧ AllCached c.shared := by
  have hstate : (server.followIf (fun t c lbl => decide (SwapsInOrder t c lbl)) []
      (System.idleAt newWorld fun _ : Fin 1 => ⟨7, 1, ascii "ann"⟩)
      (.start 0 (.line (ascii "ADD_PRICE ann rb2510 3500 0")) ::
        List.replicate 6 (.step 0))).map (fun out =>
          ((out.2.thread 0).isIdle, out.2.shared.db.alerts.rows.isEmpty)) =
      some (true, false) := by decide +kernel
  obtain ⟨⟨t, c⟩, hfollow, hends⟩ := Option.map_eq_some_iff.mp hstate
  obtain ⟨hidle, hrows⟩ := Prod.mk.inj hends
  have hrun : server.Run SwapsInOrder _ t c :=
    (System.run_of_followIf .nil hfollow).mono fun _ _ _ => of_decide_eq_true
  have hempty : AllCached newWorld := by
    intro r hr
    cases hr
  refine ⟨t, c, hrun, List.isEmpty_eq_false_iff.mp hrows,
    allCached_of_run hempty hrun fun i => ?_⟩
  rw [Fin.fin_one_eq_zero i]
  exact hidle

/-! ## A lost alert -/

/-- Two connections of ann add an alert each. The first one reads the table and then
waits until the second one is done with its own refresh. -/
def overtakenRefresh : List (Choice (Fin 2) Job) :=
  [Choice.start 0 (Job.connect 7), Choice.step 0] ++
  Choice.start 0 (Job.line (ascii "REGISTER ann pw a@b")) :: List.replicate 2
    (Choice.step 0) ++
  Choice.start 0 (Job.line (ascii "LOGIN ann pw")) :: List.replicate 3 (Choice.step 0) ++
  [Choice.start 1 (Job.connect 8), Choice.step 1] ++
  Choice.start 1 (Job.line (ascii "LOGIN ann pw")) :: List.replicate 3 (Choice.step 1) ++
  Choice.start 0 (Job.line (ascii "ADD_PRICE ann rb2510 3500 0")) ::
    List.replicate 3 (Choice.step 0) ++
  Choice.start 1 (Job.line (ascii "ADD_PRICE ann cu2512 80000 0")) ::
    List.replicate 7 (Choice.step 1) ++
  List.replicate 3 (Choice.step 0)

set_option maxRecDepth 10000 in
/-- Both are answered OK and the server is idle, but the second alert is not in the
cache. -/
theorem second_alert_is_lost :
    AllCached newWorld ∧ ∃ t c,
      server.AnyRun (System.idleAt newWorld fun _ : Fin 2 => .new 0) t c ∧
        (∀ i, (c.thread i).isIdle) ∧ ¬ AllCached c.shared := by
  have hstate : (server.follow (System.idleAt newWorld fun _ => .new 0)
      overtakenRefresh).map (fun out =>
        ((out.2.thread 0).isIdle, (out.2.thread 1).isIdle,
          out.2.shared.db.alerts.rows.all fun r =>
            !AlertDB.pendingPrice r || out.2.shared.priceAlertCache.has r)) =
      some (true, true, false) := by decide +kernel
  obtain ⟨⟨t, c⟩, hfollow, hrest⟩ := Option.map_eq_some_iff.mp hstate
  simp only [Prod.mk.injEq] at hrest
  obtain ⟨h0, h1, hlost⟩ := hrest
  have hempty : AllCached newWorld := by
    intro r hr
    cases hr
  refine ⟨hempty, t, c, System.run_of_follow hfollow, Fin.forall_fin_two.mpr ⟨h0, h1⟩,
    fun hall => ?_⟩
  refine absurd hlost ?_
  rw [Bool.not_eq_false, List.all_eq_true]
  intro r hr
  by_cases hpending : AlertDB.pendingPrice r = true
  · rw [hall r hr hpending, Bool.or_true]
  · rw [Bool.eq_false_iff.mpr hpending]
    rfl

end CloudAlert
