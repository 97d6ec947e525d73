import CloudAlert.Server.AlertEngine

/-!
# Client sessions

The command handlers of `ClientSession.cpp` as programs. A handler gets the
session's own data and the line; it returns the session's data after the
command and the lines it sends to the session's socket.
-/

namespace CloudAlert

/-- The data of a `ClientSession`. -/
structure Session where
  sock : Socket
  userId : ℤ         -- -1 until LOGIN succeeds
  username : Bytes
deriving DecidableEq

/-- A session on a new connection. -/
def Session.new (sock : Socket) : Session := ⟨sock, -1, []⟩

/-- `ClientSession::~ClientSession`, up to `closesocket`. -/
def endSession (self : Session) : Action Unit :=
  if self.userId ≠ -1 then ask (.unregisterSocket self.userId self.sock)
  else return ()

/-- What a handler returns. -/
abbrev Handler := Action (Session × Reply)

/-- The handler sends one line and is done. -/
def Session.sendLine (self : Session) (resp : Bytes) : Handler :=
  return (self, ⟨[resp], false⟩)

/-- The handler sends one line of the source and is done. -/
abbrev Session.say (self : Session) (resp : String) : Handler :=
  self.sendLine (ascii resp)

/-- `HandleRegister`: `REGISTER <username> <password> <email>`. -/
def handleRegister (self : Session) (line : Bytes) : Handler :=
  match splitLine line with
  | _ :: username :: password :: email :: _ =>
      if username = [] ∨ password = [] ∨ email = [] then
        self.say "ERR username, password and email cannot be empty"
      else do
        let uid : ℤ ← ask (.registerUser username password email)
        if uid < 0 then self.say "ERR username already taken"
        else self.say "OK"
  | _ => self.say "ERR REGISTER requires username password email"

/-- `HandleLogin`: `LOGIN <username> <password>`. -/
def handleLogin (self : Session) (line : Bytes) : Handler :=
  match splitLine line with
  | _ :: username :: password :: _ => do
      let uid : ℤ ← ask (.verifyLogin username password)
      if uid < 0 then self.say "ERR wrong username or password"
      else do
        ask (.registerSocket uid self.sock)
        { self with userId := uid, username := username }.say "OK"
  | _ => self.say "ERR LOGIN requires username and password"

/-- `HandleAddPrice`: `ADD_PRICE <username> <contract> <price> <condition>`. -/
def handleAddPrice (self : Session) (line : Bytes) : Handler :=
  if self.userId < 0 then self.say "ERR Not logged in"
  else
    match splitLine line with
    | _ :: _ :: contract :: price :: cond :: _ =>
        if atoi cond ≠ condGE ∧ atoi cond ≠ condLE then
          self.say "ERR condition must be 0 (>=) or 1 (<=)"
        else do
          let alertId : ℤ ←
            ask (.addPriceAlert self.userId contract (atof price) (atoi cond))
          if alertId < 0 then self.say "ERR DB error adding price alert"
          else do
            refreshPriceAlertCache
            ask (.subscribe contract)
            self.sendLine (ascii "OK " ++ fmtInt alertId)
    | _ => self.say "ERR ADD_PRICE requires username contract price condition"

/-- `HandleAddTime`: `ADD_TIME <username> <contract> <HH:MM:SS>`. -/
def handleAddTime (self : Session) (line : Bytes) : Handler :=
  if self.userId < 0 then self.say "ERR Not logged in"
  else
    match splitLine line with
    | _ :: _ :: contract :: timeStr :: _ => do
        let alertId : ℤ ← ask (.addTimeAlert self.userId contract timeStr)
        if alertId < 0 then self.say "ERR DB error adding time alert"
        else do
          ask (.subscribe contract)
          self.sendLine (ascii "OK " ++ fmtInt alertId)
    | _ => self.say "ERR ADD_TIME requires username contract HH:MM:SS"

/-- `HandleDelete`: `DELETE <alert_id>`. -/
def handleDelete (self : Session) (line : Bytes) : Handler :=
  if self.userId < 0 then self.say "ERR Not logged in"
  else
    match splitLine line with
    | _ :: alertId :: _ => do
        let ok : Bool ← ask (.deleteAlert (atoi alertId) self.userId)
        if ok then do
          refreshPriceAlertCache
          self.say "OK"
        else self.say "ERR Delete failed (not found or already deleted)"
    | _ => self.say "ERR DELETE requires alert_id"

/-- `HandleModifyPrice`: `MODIFY_PRICE <alert_id> <contract> <price> <condition>`. -/
def handleModifyPrice (self : Session) (line : Bytes) : Handler :=
  if self.userId < 0 then self.say "ERR Not logged in"
  else
    match splitLine line with
    | _ :: alertId :: contract :: price :: cond :: _ =>
        if atoi cond ≠ condGE ∧ atoi cond ≠ condLE then
          self.say "ERR condition must be 0 (>=) or 1 (<=)"
        else do
          let ok : Bool ← ask (.modifyPriceAlert (atoi alertId) self.userId contract
            (atof price) (atoi cond))
          if ok then do
            refreshPriceAlertCache
            ask (.subscribe contract)
            self.say "OK"
          else self.say "ERR Modify failed"
    | _ => self.say "ERR MODIFY_PRICE requires alert_id contract price condition"

/-- `HandleModifyTime`: `MODIFY_TIME <alert_id> <contract> <HH:MM:SS>`. It does not
subscribe the contract. -/
def handleModifyTime (self : Session) (line : Bytes) : Handler :=
  if self.userId < 0 then self.say "ERR Not logged in"
  else
    match splitLine line with
    | _ :: alertId :: contract :: timeStr :: _ => do
        let ok : Bool ←
          ask (.modifyTimeAlert (atoi alertId) self.userId contract timeStr)
        if ok then do
          refreshPriceAlertCache
          self.say "OK"
        else self.say "ERR Modify failed"
    | _ => self.say "ERR MODIFY_TIME requires alert_id contract HH:MM:SS"

/-- The ALERT line of `HandleQuery`, in `buf[512]`. -/
def alertLine (r : AlertRecord) : Option Bytes :=
  snprintf 512 (unwords [ascii "ALERT", fmtInt r.id, fmtInt r.alertType, r.contract,
    fmtPrice r.triggerPrice, fmtInt r.condition, timeOrDash r.triggerTime,
    fmtInt r.status, r.createdAt])

/-- The loop of `HandleQuery`: the ALERT lines, then END. -/
def alertLines : List AlertRecord → Reply
  | [] => ⟨[ascii "END"], false⟩
  | r :: rest =>
      match alertLine r with
      | some line => { alertLines rest with lines := line :: (alertLines rest).lines }
      | none => ⟨[], true⟩

/-- `HandleQuery`: `QUERY <username> <status>`. -/
def handleQuery (self : Session) (line : Bytes) : Handler :=
  if self.userId < 0 then self.say "ERR Not logged in"
  else
    match splitLine line with
    | _ :: _ :: status :: _ => do
        let records : List AlertRecord ← ask (.queryAlerts self.userId (atoi status))
        return (self, alertLines records)
    | _ => self.say "ERR QUERY requires username status"

/-- `HandleSetEmail`: `SET_EMAIL <username> <password> <email>`. -/
def handleSetEmail (self : Session) (line : Bytes) : Handler :=
  if self.userId < 0 then self.say "ERR Not logged in"
  else
    match splitLine line with
    | _ :: username :: password :: email :: _ =>
        if username ≠ self.username then self.say "ERR wrong username or password"
        else do
          let uid : ℤ ← ask (.verifyLogin username password)
          if uid ≠ self.userId then self.say "ERR wrong username or password"
          else do
            let ok : Bool ← ask (.setEmail self.userId email)
            if ok then self.say "OK" else self.say "ERR Failed to set email"
    | _ => self.say "ERR SET_EMAIL requires username password email"

/-- `HandleGetEmail`: `GET_EMAIL <username>`. -/
def handleGetEmail (self : Session) (line : Bytes) : Handler :=
  if self.userId < 0 then self.say "ERR Not logged in"
  else
    match splitLine line with
    | _ :: username :: _ =>
        if username ≠ self.username then self.say "ERR wrong username"
        else do
          let email : Text ← ask (.getEmail self.userId)
          self.sendLine (ascii "OK " ++ email.val)
    | _ => self.say "ERR GET_EMAIL requires username"

/-- The PRICE line of `HandleGetPrices`, in `buf[256]`. -/
def priceLine (contract : Bytes) (lastPrice : Option ℚ) : Option Bytes :=
  snprintf 256 <| match lastPrice with
    | some p => unwords [ascii "PRICE", cstr contract, fmtPrice p]
    | none => unwords [ascii "PRICE", cstr contract, ascii "-"]

/-- The loop of `HandleGetPrices`; `sent` are the lines sent so far. -/
def getPricesLoop (self : Session) : List Bytes → List Bytes → Handler
  | [], sent => return (self, ⟨sent ++ [ascii "END"], false⟩)
  | contract :: rest, sent =>
      if contract = [] then getPricesLoop self rest sent
      else do
        ask (.subscribe contract)
        let lastPrice : Option ℚ ← ask (.getLastPrice contract)
        match priceLine contract lastPrice with
        | some line => getPricesLoop self rest (sent ++ [line])
        | none => return (self, ⟨sent, true⟩)

/-- A contract is subscribed to, and its line is sent if it fits the buffer. -/
theorem getPricesLoop_cons (self : Session) {contract : Bytes} (hne : contract ≠ [])
    (rest sent : List Bytes) :
    getPricesLoop self (contract :: rest) sent =
      .call (.subscribe contract) (fun _ =>
        .call (.getLastPrice contract) fun lastPrice : Option ℚ =>
          (priceLine contract lastPrice).elim (.ret (self, ⟨sent, true⟩))
            fun line => getPricesLoop self rest (sent ++ [line])) := by
  rw [getPricesLoop, if_neg hne]
  change Program.call _ (fun _ => Program.call _ _) = _
  congr 1
  funext _
  congr 1
  funext lastPrice
  rw [Program.bind]
  cases priceLine contract lastPrice <;> rfl

/-- `HandleGetPrices`: `GET_PRICES <contract1> <contract2> ...`. -/
def handleGetPrices (self : Session) (line : Bytes) : Handler :=
  if self.userId < 0 then self.say "ERR Not logged in"
  else
    match splitLine line with
    | _ :: contract :: rest => getPricesLoop self (contract :: rest) []
    | _ => self.say "ERR GET_PRICES requires at least one contract"

/-- `ClientSession::Dispatch`. -/
def dispatch (self : Session) (line : Bytes) : Handler :=
  let cmd := commandWord line
  if cmd = ascii "REGISTER" then handleRegister self line
  else if cmd = ascii "LOGIN" then handleLogin self line
  else if cmd = ascii "ADD_PRICE" then handleAddPrice self line
  else if cmd = ascii "ADD_TIME" then handleAddTime self line
  else if cmd = ascii "DELETE" then handleDelete self line
  else if cmd = ascii "MODIFY_PRICE" then handleModifyPrice self line
  else if cmd = ascii "MODIFY_TIME" then handleModifyTime self line
  else if cmd = ascii "QUERY" then handleQuery self line
  else if cmd = ascii "SET_EMAIL" then handleSetEmail self line
  else if cmd = ascii "GET_EMAIL" then handleGetEmail self line
  else if cmd = ascii "GET_PRICE" then handleGetPrices self line
  else if cmd = ascii "GET_PRICES" then handleGetPrices self line
  else self.say "ERR Unknown command"

theorem dispatch_rule {P : Handler → Prop} (self : Session) (line : Bytes)
    (register : commandWord line = ascii "REGISTER" → P (handleRegister self line))
    (login : commandWord line = ascii "LOGIN" → P (handleLogin self line))
    (addPrice : commandWord line = ascii "ADD_PRICE" → P (handleAddPrice self line))
    (addTime : commandWord line = ascii "ADD_TIME" → P (handleAddTime self line))
    (delete : commandWord line = ascii "DELETE" → P (handleDelete self line))
    (modifyPrice : commandWord line = ascii "MODIFY_PRICE" →
      P (handleModifyPrice self line))
    (modifyTime : commandWord line = ascii "MODIFY_TIME" → P (handleModifyTime self line))
    (query : commandWord line = ascii "QUERY" → P (handleQuery self line))
    (setEmail : commandWord line = ascii "SET_EMAIL" → P (handleSetEmail self line))
    (getEmail : commandWord line = ascii "GET_EMAIL" → P (handleGetEmail self line))
    (getPrices : commandWord line = ascii "GET_PRICE" ∨
      commandWord line = ascii "GET_PRICES" → P (handleGetPrices self line))
    (unknown : P (self.say "ERR Unknown command")) : P (dispatch self line) := by
  unfold dispatch
  dsimp only
  refine iteInduction register fun _ => ?_
  refine iteInduction login fun _ => ?_
  refine iteInduction addPrice fun _ => ?_
  refine iteInduction addTime fun _ => ?_
  refine iteInduction delete fun _ => ?_
  refine iteInduction modifyPrice fun _ => ?_
  refine iteInduction modifyTime fun _ => ?_
  refine iteInduction query fun _ => ?_
  refine iteInduction setEmail fun _ => ?_
  refine iteInduction getEmail fun _ => ?_
  refine iteInduction (fun h => getPrices (.inl h)) fun _ => ?_
  exact iteInduction (fun h => getPrices (.inr h)) fun _ => unknown

end CloudAlert
