import CloudAlert.Server.World

/-!
# The alert engine

The functions of `AlertEngine.cpp` as programs: price checks on a tick, time
checks of the timer thread, the cache refresh and `FireAlert`. A check returns
`false` when a text does not fit its buffer, where the process ends.

`checkTimeAlertsAt` is the body of `CheckTimeAlerts` after it has read the
time, so that the time string it runs with is a parameter.
-/

namespace CloudAlert

/-! ## `FireAlert` -/

/-- Texts separated by single spaces. -/
def unwords (ws : List Bytes) : Bytes := [32].intercalate ws

theorem unwords_cons_cons (x y : Bytes) (ws : List Bytes) :
    unwords (x :: y :: ws) = x ++ 32 :: unwords (y :: ws) := by
  simp [unwords, List.intercalate]

theorem unwords_singleton (x : Bytes) : unwords [x] = x := by
  simp [unwords, List.intercalate]

theorem length_unwords (w : Bytes) (ws : List Bytes) :
    (unwords (w :: ws)).length = w.length + (ws.map fun s => s.length + 1).sum := by
  induction ws generalizing w with
  | nil => simp [unwords]
  | cons s ws ih =>
      rw [unwords_cons_cons, List.length_append, List.length_cons, ih, List.map_cons,
        List.sum_cons]
      omega

/-- The tokenizer undoes `unwords` on tokens. -/
theorem splitLine_unwords {ws : List Bytes} (h : ∀ w ∈ ws, IsToken w) :
    splitLine (unwords ws) = ws := by
  induction ws with
  | nil => rfl
  | cons x ws ih =>
      obtain ⟨hx, hws⟩ := List.forall_mem_cons.mp h
      cases ws with
      | nil => rw [unwords_singleton, splitLine_token hx]
      | cons y ws => rw [unwords_cons_cons, splitLine_token_append hx, ih hws]

/-- `trigger_time.empty() ? "-" : trigger_time.c_str()`. -/
def timeOrDash (t : Text) : Bytes := if t = Text.empty then [45] else t.val

/-- `ConditionText`. -/
def conditionText (condition : ℤ) : Bytes :=
  if condition = condLE then ascii "<=" else ascii ">="

/-- The TRIGGERED line, in `msgBuf[512]`. -/
def triggeredLine (rec : AlertRecord) (lastPrice : ℚ) (timestamp : Text) : Option Bytes :=
  snprintf 512 (unwords [ascii "TRIGGERED", fmtInt rec.id, fmtInt rec.alertType,
    rec.contract, fmtPrice lastPrice, fmtInt rec.condition, fmtPrice rec.triggerPrice,
    timeOrDash rec.triggerTime, timestamp] ++ [10])

/-- The e-mail subject, in `subjectBuf[256]`. The texts are GBK. -/
def mailSubject (rec : AlertRecord) : Option Bytes :=
  snprintf 256 <|
    if rec.alertType = alertTypePrice then
      [0xBC, 0xDB, 0xB8, 0xF1, 0xD4, 0xA4, 0xBE, 0xAF, 0xB4, 0xA5, 0xB7, 0xA2, 0xA3, 0xBA]
        ++ rec.contract.val
    else
      [0xCA, 0xB1, 0xBC, 0xE4, 0xD4, 0xA4, 0xBE, 0xAF, 0xB4, 0xA5, 0xB7, 0xA2, 0xA3, 0xBA]
        ++ rec.contract.val

/-- The e-mail body, in `bodyBuf[1024]`. -/
def mailBody (rec : AlertRecord) (lastPrice : ℚ) (timestamp : Text) : Option Bytes :=
  snprintf 1024 <|
    if rec.alertType = alertTypePrice then
      [0xA1, 0xBE, 0xBC, 0xDB, 0xB8, 0xF1, 0xD4, 0xA4, 0xBE, 0xAF, 0xB4, 0xA5, 0xB7, 0xA2,
        0xA1, 0xBF, 10, 10] ++
      [0xD4, 0xA4, 0xBE, 0xAF, 73, 68, 0xA3, 0xBA] ++ fmtInt rec.id ++ [10] ++
      [0xBA, 0xCF, 0xD4, 0xBC, 0xA3, 0xBA] ++ rec.contract.val ++ [10] ++
      [0xB4, 0xA5, 0xB7, 0xA2, 0xCC, 0xF5, 0xBC, 0xFE, 0xA3, 0xBA, 0xD7, 0xEE, 0xD0, 0xC2,
        0xBC, 0xDB, 32] ++ conditionText rec.condition ++ [32] ++
        fmtPrice rec.triggerPrice ++ [10] ++
      [0xB4, 0xA5, 0xB7, 0xA2, 0xCA, 0xB1, 0xD7, 0xEE, 0xD0, 0xC2, 0xBC,
        0xDB, 0xA3, 0xBA] ++
        fmtPrice lastPrice ++ [10] ++
      [0xB4, 0xA5, 0xB7, 0xA2, 0xCA, 0xB1, 0xBC, 0xE4, 0xA3, 0xBA] ++ timestamp.val ++
        [10, 10] ++
      [0xB8, 0xC3, 0xD4, 0xA4, 0xBE, 0xAF, 0xD2, 0xD1, 0xD7, 0xD4, 0xB6, 0xAF, 0xB1, 0xEA,
        0xBC, 0xC7, 0xCE, 0xAA, 0xD2, 0xD1, 0xB4, 0xA5, 0xB7, 0xA2, 0xA3,
        0xAC, 0xB2, 0xBB, 0xBB, 0xE1, 0xD6, 0xD8, 0xB8, 0xB4, 0xCC, 0xE1, 0xD0,
        0xD1, 0xA1, 0xA3]
    else
      [0xA1, 0xBE, 0xCA, 0xB1, 0xBC, 0xE4, 0xD4, 0xA4, 0xBE, 0xAF, 0xB4, 0xA5, 0xB7, 0xA2,
        0xA1, 0xBF, 10, 10] ++
      [0xD4, 0xA4, 0xBE, 0xAF, 73, 68, 0xA3, 0xBA] ++ fmtInt rec.id ++ [10] ++
      [0xBA, 0xCF, 0xD4, 0xBC, 0xA3, 0xBA] ++ rec.contract.val ++ [10] ++
      [0xCC, 0xE1, 0xD0, 0xD1, 0xCA, 0xB1, 0xBC, 0xE4, 0xA3, 0xBA] ++
        timeOrDash rec.triggerTime ++ [10] ++
      [0xB4, 0xA5, 0xB7, 0xA2, 0xCA, 0xB1, 0xD7, 0xEE, 0xD0, 0xC2, 0xBC,
        0xDB, 0xA3, 0xBA] ++
        fmtPrice lastPrice ++ [10] ++
      [0xB4, 0xA5, 0xB7, 0xA2, 0xCA, 0xB1, 0xBC, 0xE4, 0xA3, 0xBA] ++ timestamp.val ++
        [10, 10] ++
      [0xC7, 0xEB, 0xB0, 0xB4, 0xBC, 0xC6, 0xBB, 0xAE, 0xB9, 0xD8, 0xD7, 0xA2, 0xB8, 0xC3,
        0xBA, 0xCF, 0xD4, 0xBC, 0xA1, 0xA3]

/-- `AlertEngine::FireAlert`. -/
def fireAlert (rec : AlertRecord) (lastPrice : ℚ) (timestamp : Text) : Action Bool := do
  ask (.fireAlert rec)
  match triggeredLine rec lastPrice timestamp with
  | none => return false
  | some msg => do
      let email : Text ← ask (.getEmail rec.userId)
      match mailSubject rec, mailBody rec lastPrice timestamp with
      | some subject, some body => do
          ask (.notify ⟨rec.userId, msg, email, subject, body⟩)
          return true
      | _, _ => return false

/-- The ways through `fireAlert`: the message does not fit its buffer, the mail does not
fit its own, or the task is queued. -/
theorem fireAlert_cases (rec : AlertRecord) (lastPrice : ℚ) (timestamp : Text) :
    fireAlert rec lastPrice timestamp = .call (.fireAlert rec) (fun _ => .ret false) ∨
    fireAlert rec lastPrice timestamp = .call (.fireAlert rec) (fun _ =>
      .call (.getEmail rec.userId) fun _ => .ret false) ∨
    ∃ msg subject body, triggeredLine rec lastPrice timestamp = some msg ∧
      fireAlert rec lastPrice timestamp = .call (.fireAlert rec) (fun _ =>
        .call (.getEmail rec.userId) fun email : Text =>
          .call (.notify ⟨rec.userId, msg, email, subject, body⟩) fun _ =>
            .ret true) := by
  unfold fireAlert
  cases triggeredLine rec lastPrice timestamp with
  | none => exact .inl rfl
  | some msg =>
      refine .inr ?_
      cases mailSubject rec with
      | none => exact .inl rfl
      | some subject =>
          cases mailBody rec lastPrice timestamp with
          | none => exact .inl rfl
          | some body => exact .inr ⟨msg, subject, body, rfl, rfl⟩

/-! ## Price alerts -/

/-- The two comparisons of `CheckPriceAlert`. -/
def fires (rec : AlertRecord) (lastPrice : ℚ) : Bool :=
  if rec.condition = condGE ∧ rec.triggerPrice ≤ lastPrice then true
  else if rec.condition = condLE ∧ lastPrice ≤ rec.triggerPrice then true
  else false

/-- `lastPrice > 0.0 && lastPrice < 1.0e100`. -/
def accepted (lastPrice : ℚ) : Bool := 0 < lastPrice ∧ lastPrice < 10 ^ 100

/-- The loop of `CheckPriceAlert` over its copy of the cached alerts. -/
def checkPriceLoop (lastPrice : ℚ) : List AlertRecord → Action Bool
  | [] => return true
  | rec :: rest =>
      if fires rec lastPrice then do
        let ts : LocalTime ← ask .currentTime
        let triggered : Bool ← ask (.triggerAlert rec ts.stamp)
        if triggered then do
          ask (.removeCached rec.id)
          let fits : Bool ← fireAlert rec lastPrice ts.stamp
          if fits then checkPriceLoop lastPrice rest else return false
        else checkPriceLoop lastPrice rest
      else checkPriceLoop lastPrice rest

/-- `AlertEngine::CheckPriceAlert`. Its caller makes the contract from a C
string. -/
def checkPriceAlert (contract : Text) (lastPrice : ℚ) : Action Bool :=
  let check : Action Bool := do
    let pending : List AlertRecord ← ask (.copyCached contract)
    checkPriceLoop lastPrice pending
  if accepted lastPrice then do
    ask (.setLastPrice contract lastPrice)
    check
  else check

/-! ## The cache -/

/-- The loop of `RefreshPriceAlertCache`: reads the pending price alerts of each
contract into `nextCache`. -/
def refreshLoop : List Text → PriceAlertCache → Action PriceAlertCache
  | [], nextCache => return nextCache
  | contract :: rest, nextCache => do
      let records : List AlertRecord ← ask (.getPendingPriceAlerts contract)
      if records ≠ [] then
        refreshLoop rest (Function.update nextCache contract (some records))
      else refreshLoop rest nextCache

/-- `AlertEngine::RefreshPriceAlertCache`. -/
def refreshPriceAlertCache : Action Unit := do
  let contracts : List Text ← ask .getPendingContracts
  let nextCache ← refreshLoop contracts fun _ => none
  ask (.swapCache nextCache)

/-! ## Time alerts -/

/-- The loop of `CheckTimeAlerts`. -/
def checkTimeLoop : List AlertRecord → Action Bool
  | [] => return true
  | rec :: rest => do
      let ts : LocalTime ← ask .currentTime
      let triggered : Bool ← ask (.triggerAlert rec ts.stamp)
      if triggered then do
        let lastPrice : Option ℚ ← ask (.getLastPrice rec.contract)
        let fits : Bool ← fireAlert rec (lastPrice.getD 0) ts.stamp
        if fits then checkTimeLoop rest else return false
      else checkTimeLoop rest

/-- `AlertEngine::CheckTimeAlerts`, after `GetCurrentHMS()` gave `hms`. -/
def checkTimeAlertsAt (hms : Text) : Action Bool := do
  let pending : List AlertRecord ← ask (.getPendingTimeAlerts hms)
  checkTimeLoop pending

/-- `AlertEngine::CheckTimeAlerts`. -/
def checkTimeAlerts : Action Bool := do
  let now : LocalTime ← ask .currentTime
  checkTimeAlertsAt now.hms

end CloudAlert
