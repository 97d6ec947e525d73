import CloudAlert.Client.Prices
import CloudAlert.Program.MessageLoop

/-!
# The window

The handlers of `CMainFrame` and of its dialogs, and the message loop that runs them. A
message box, a dialog or a menu handles further messages while it is open: the buttons of
the window cannot be clicked then, but the messages its receiver thread posts and its
timers get through.

At the other end of the connection is a session of the server, and `Desktop.world` is the
world it works on. `Desktop.network` says what becomes of each command: whether it gets to
the session, and whether `SendCommand` returns the reply in time or what else it returns.
That may be any lines that have been sent on the connection so far, so the commands can
time out and their replies can be late. The connection is one of lines here.
-/

namespace CloudAlert

/-! ## The window -/

/-- What `UpdateButtonState` sets: which buttons can be clicked, and the labels. -/
structure ButtonState where
  setEmailBtn : Bool
  addPriceBtn : Bool
  modPriceBtn : Bool
  modTimeBtn : Bool
  deleteBtn : Bool
  contractPickBtn : Bool
  deletedViewBtn : Bool
  refreshBtn : Bool
  logoutBtn : Bool
  deletedViewText : Bytes
  userInfo : Bytes
  emailInfo : Bytes
  connectionInfo : Bytes
deriving DecidableEq

/-- What `UpdateEditorMode` and `UpdateEditorVisibility` set: the title, whether the type
can be chosen, and which controls are shown. -/
structure EditorView where
  panelTitle : Bytes
  typeCombo : Bool
  editing : Bool
  priceMode : Bool
deriving DecidableEq

/-- `CMainFrame`. -/
structure MainWindow where
  connected : Bool
  closing : Bool
  editMode : Bool
  showDeletedOnly : Bool
  editAlertType : ℤ
  username : Field
  email : Field
  recvThread : Bool
  list : List AlertRow
  idEdit : Field
  editor : Editor
  statusSel : ℤ
  buttons : ButtonState
  editorView : EditorView
  listTitle : Bytes
  statusText : Bytes
  toastText : Option Bytes       -- none: hidden
  toastTimer : Bool              -- `TIMER_TOAST` is set
  priceTimer : Bool              -- `TIMER_PRICE_REFRESH` is set
  visible : Bool
  closed : Bool                  -- the window is destroyed
  -- the dialogs
  loginStatus : Bytes
  registerStatus : Bytes
  emailStatus : Bytes

namespace MainWindow

/-- The texts of the labels. -/
def emptyText : Field := ⟨[], List.forall_mem_nil _⟩

/-- `m_connected && !m_username.IsEmpty()`. -/
def loggedIn (w : MainWindow) : Bool := w.connected && w.username ≠ emptyText

/-- The buttons and labels of `UpdateButtonState`. -/
def buttonState (w : MainWindow) : ButtonState where
  setEmailBtn := w.loggedIn
  addPriceBtn := w.loggedIn && !w.editMode
  modPriceBtn := w.loggedIn && w.editMode
  modTimeBtn := w.loggedIn && w.editMode
  deleteBtn := w.loggedIn && w.editMode
  contractPickBtn := w.loggedIn
  deletedViewBtn := w.loggedIn
  refreshBtn := w.loggedIn
  logoutBtn := w.loggedIn
  deletedViewText := if w.showDeletedOnly then ascii "Active List"
    else ascii "Deleted Only"
  userInfo :=
    if w.loggedIn then ascii "Current user: " ++ w.username.val else ascii "Not logged in"
  emailInfo :=
    if w.loggedIn then
      ascii "Email: " ++ if w.email = emptyText then ascii "-" else w.email.val
    else ascii "Email: -"
  connectionInfo :=
    if w.loggedIn then ascii "Server: 127.0.0.1:8888 | Online"
    else if w.connected then ascii "Server: 127.0.0.1:8888 | Connected"
    else ascii "Server: 127.0.0.1:8888 | Offline"

/-- `CMainFrame::UpdateButtonState`. -/
def updateButtonState (w : MainWindow) : MainWindow := { w with buttons := w.buttonState }

/-- What the editor looks like in its mode. -/
def editorState (w : MainWindow) : EditorView where
  panelTitle :=
    if w.editMode then ascii "Edit Alert (ID: " ++ w.idEdit.val ++ ascii ")"
    else ascii "New Alert"
  typeCombo := !w.editMode
  editing := w.editMode
  priceMode := w.editor.selectedAlertType = alertTypePrice

/-- `CMainFrame::UpdateEditorMode`. -/
def updateEditorMode (w : MainWindow) : MainWindow :=
  { w with editorView := w.editorState }.updateButtonState

/-- The editor of a new alert. -/
def newEditor : Editor where
  contract := ⟨ascii "rb2609", by decide⟩
  price := emptyText
  timeText := ⟨ascii "09:30:00", by decide⟩
  typeSel := 0
  condSel := 0

/-- `CMainFrame::EnterAddMode`. -/
def enterAddMode (w : MainWindow) : MainWindow :=
  { w with
    toastText := none, editMode := false, editAlertType :=
      alertTypePrice, idEdit := emptyText,
    editor := newEditor }.updateEditorMode

/-- `CMainFrame::EnterEditMode`. -/
def enterEditMode (w : MainWindow) (item : ℕ) : MainWindow :=
  match w.list[item]? with
  | none => { w with toastText := none }
  | some row =>
      let form := CloudAlert.enterEditMode row
      { w with
        toastText := none, editMode := true, editAlertType := form.editAlertType,
        idEdit := form.id, editor := form.editor }.updateEditorMode

/-- `CMainFrame::SetStatus`. -/
def setStatus (w : MainWindow) (text : Bytes) : MainWindow :=
  { w with statusText := text }

/-- `CMainFrame::ShowToast`. -/
def showToast (w : MainWindow) (text : Bytes) : MainWindow :=
  { w with toastText := some text, toastTimer := true }

/-- What the list shows. -/
def listChoice (w : MainWindow) : ListChoice := ⟨w.showDeletedOnly, w.statusSel⟩

end MainWindow

/-! ## The desktop -/

/-- A message in the queue of the window's thread. -/
inductive Posted where
  | triggered (line : Text)
  | disconnected
  | postLogin
  | close
deriving DecidableEq

/-- What becomes of a command, a connection attempt or a `CreateThread`. -/
structure Outcome where
  ok : Bool
  -- what `SendCommand` returns instead of the reply: its result, and which lines
  other : Option (Bool × List ℕ)

/-- A command as the window has sent it, with `m_username`, the session that got it and
the world it got it in. -/
structure Sent where
  command : ClientCommand
  username : Field
  session : Session
  world : World

/-- The window, the session at the other end of `m_sock`, and the world. -/
structure Desktop where
  window : MainWindow
  posted : List Posted
  dialogEnded : Bool          -- `EndDialog(IDOK)` for the innermost dialog
  session : Session
  sessionOpen : Bool
  sockets : ℕ                 -- the sockets are numbered as they are made
  heard : List Bytes          -- the lines sent on the connection
  world : World
  network : ℕ → Outcome       -- still to come
  sent : List Sent            -- on all connections

/-- What the window opens. -/
inductive WindowDialog where
  | messageBox (text : Bytes)
  | question (text : Bytes)
  | login
  | register
  | changeEmail
  | contractMenu
deriving DecidableEq

/-- What a handler does. -/
inductive WindowOp where
  | look
  | change (f : MainWindow → MainWindow)
  | setDialogEnded (ended : Bool)
  | exchange (c : ClientCommand)     -- `SendLine`, and the loop of `SendCommand`
  | connect                          -- `TcpClient::Connect`
  | createThread
  | closeSocket                      -- `TcpClient::Close`
  | post (m : Posted)

@[reducible] def WindowOp.Ans : WindowOp → Type
  | look => MainWindow
  | exchange _ => Bool × List Bytes
  | connect => Bool
  | createThread => Bool
  | _ => Unit

/-- The next outcome. -/
def Desktop.outcome (s : Desktop) : Outcome := s.network 0

/-- Takes the next outcome. -/
def Desktop.advance (s : Desktop) : Desktop :=
  { s with network := fun n => s.network (n + 1) }

/-- The session gets the bytes of a command and answers it. -/
def Desktop.serve (s : Desktop) (c : ClientCommand) : Desktop :=
  match received c.text with
  | line :: _ =>
      let out := Program.run exec (dispatch s.session line) s.world
      { s with
        session := out.1.1, sessionOpen := !out.1.2.ended, heard :=
          s.heard ++ out.1.2.lines,
        world := out.2 }
  | [] => s

/-- `SendCommand` once `m_connected` is set. -/
def Desktop.exchange (s : Desktop) (c : ClientCommand) : (Bool × List Bytes) × Desktop :=
  let outcome := s.outcome
  let sent := { s.advance with
      sent := s.sent ++ [⟨c, s.window.username, s.session, s.world⟩] }
  if ¬ outcome.ok then ((false, []), sent)
  else
    let after := if s.sessionOpen then sent.serve c else sent
    match outcome.other with
    | some (ok, lines) => ((ok, lines.filterMap fun n => after.heard[n]?), after)
    | none =>
        match promptReply s.world s.session c with
        | some lines =>
            if s.sessionOpen then ((true, lines), after) else ((false, []), after)
        | none => ((false, []), after)

/-- What an operation does. -/
def execWindow : (o : WindowOp) → Desktop → o.Ans × Desktop
  | .look, s => (s.window, s)
  | .change f, s => ((), { s with window := f s.window })
  | .setDialogEnded ended, s => ((), { s with dialogEnded := ended })
  | .exchange c, s => s.exchange c
  | .connect, s =>
      if s.outcome.ok then
        (true, { s.advance with
          session := .new s.sockets, sessionOpen := true, sockets := s.sockets + 1,
          heard := [] })
      else (false, { s.advance with sessionOpen := false })
  | .createThread, s => (s.outcome.ok, s.advance)
  | .closeSocket, s => ((), { s with sessionOpen := false })
  | .post m, s => ((), { s with posted := s.posted ++ [m] })

/-- The code of a handler. -/
abbrev WindowCode := Handling WindowOp.Ans WindowDialog ℕ

namespace CMainFrame

/-! ## Operations -/

def perform (o : WindowOp) : WindowCode o.Ans := MessageLoop.perform o

def look : WindowCode MainWindow := perform .look

def change (f : MainWindow → MainWindow) : WindowCode Unit := perform (.change f)

def setDialogEnded (ended : Bool) : WindowCode Unit := perform (.setDialogEnded ended)

def exchange (c : ClientCommand) : WindowCode (Bool × List Bytes) := perform (.exchange c)

def connect : WindowCode Bool := perform .connect

def createThread : WindowCode Bool := perform .createThread

def closeSocket : WindowCode Unit := perform .closeSocket

/-- `PostMessage`. -/
def post (m : Posted) : WindowCode Unit := perform (.post m)

def openDialog (d : WindowDialog) : WindowCode ℕ := MessageLoop.openDialog d

/-- `AfxMessageBox` with an OK button. -/
def messageBox (text : Bytes) : WindowCode Unit := do
  let _ ← openDialog (.messageBox text)
  return ()

def idOk : ℕ := 1
def idCancel : ℕ := 2
def idYes : ℕ := 6
def idNo : ℕ := 7

/-- `AfxMessageBox` with MB_YESNO, and whether the answer is IDYES. -/
def question (text : Bytes) : WindowCode Bool := do
  let result : ℕ ← openDialog (.question text)
  return decide (result = idYes)

/-- `DoModal`, and whether the result is IDOK. -/
def doModal (dialog : WindowDialog) : WindowCode Bool := do
  setDialogEnded false
  let result : ℕ ← openDialog dialog
  setDialogEnded false
  return decide (result = idOk)

/-! ## Commands -/

/-- `CMainFrame::EnsureLoggedIn`. -/
def ensureLoggedIn : WindowCode Bool := do
  let w ← look
  if w.loggedIn then return true
  else
    messageBox (ascii "Please login first.")
    return false

/-- `CMainFrame::EnsureConnected`. -/
def ensureConnected : WindowCode Bool := do
  let w ← look
  if w.connected then return true
  else
    change fun w => w.setStatus (ascii "Connecting to server...")
    let ok ← connect
    if ok then
      change fun w => { w with connected := true, closing := false }.updateButtonState
      return true
    else
      change fun w => w.setStatus (ascii "Connect failed. Please start Server.exe first.")
      return false

/-- `CMainFrame::SendCommand`: its result, and the lines. -/
def sendCommand (c : ClientCommand) : WindowCode (Bool × List Bytes) := do
  let w ← look
  if w.connected then exchange c else return (false, [])

/-- `CMainFrame::StartReceiver`. -/
def startReceiver : WindowCode Bool := do
  let w ← look
  if w.recvThread then return true
  else if !w.connected then return false
  else
    change fun w => { w with closing := false }
    let ok ← createThread
    change fun w => { w with recvThread := ok }
    return ok

/-- `CMainFrame::StopConnection`. -/
def stopConnection : WindowCode Unit := do
  let w ← look
  change fun w => { w with closing := true }
  if w.connected then closeSocket
  change fun w => { w with recvThread := false, connected := false }

/-- The first line of a failed reply, or a text of the source. -/
def errorText (lines : List Bytes) (fallback : String) : Bytes :=
  lines.head?.getD (ascii fallback)

/-- `CMainFrame::LoginUser`: `none` if it succeeds, or else the error. -/
def loginUser (user password : Field) : WindowCode (Option Bytes) := do
  let connected ← ensureConnected
  if !connected then
    return some (ascii "Cannot connect to server. Is Server.exe running?")
  else
    let reply ← sendCommand (.login user password)
    if reply.1 && isOk reply.2 then
      change fun w => { w with username := user, showDeletedOnly := false }
      let started ← startReceiver
      if started then
        change fun w =>
          ((w.setStatus (ascii "Logged in. Click Refresh to load alerts.")).showToast
            (ascii "Login successful")).updateButtonState
        return none
      else
        change fun w => { w with username := MainWindow.emptyText }.updateButtonState
        return some (ascii "Login succeeded, but receiver thread failed to start.")
    else return some (errorText reply.2 "Login failed.")

/-- `CMainFrame::RegisterUser`, likewise. -/
def registerUser (user password email : Field) : WindowCode (Option Bytes) := do
  let connected ← ensureConnected
  if !connected then
    return some (ascii "Cannot connect to server. Is Server.exe running?")
  else
    let reply ← sendCommand (.register user password email)
    if reply.1 && isOk reply.2 then
      change fun w => w.setStatus (ascii "Registration successful. You can login now.")
      return none
    else return some (errorText reply.2 "Registration failed.")

/-- `CMainFrame::ChangeEmail`, likewise. -/
def changeEmail (password email : Field) : WindowCode (Option Bytes) := do
  let connected ← ensureConnected
  let w ← look
  if !connected || w.username = MainWindow.emptyText then
    return some (ascii "Please login first.")
  else
    let reply ← sendCommand (.setEmail w.username password email)
    if reply.1 && isOk reply.2 then
      change fun w =>
        ({ w.setStatus (ascii "Email updated.") with email := email }.showToast
        (ascii "Email updated")).updateButtonState
      return none
    else return some (errorText reply.2 "Failed to update email.")

/-- The address in a reply to GET_EMAIL: `line.substr(3)`. The lines that are received
have no line break. -/
def emailText (line : Bytes) : Field := editText (cstr (line.drop 3))

/-- `CMainFrame::RefreshEmail`. -/
def refreshEmail : WindowCode Unit := do
  let w ← look
  if !w.loggedIn then return ()
  else
    let reply ← sendCommand (.getEmail w.username)
    let email :=
      if reply.1 && isOk reply.2 then emailText (reply.2.head?.getD [])
        else MainWindow.emptyText
    change fun w => { w with email := email }.updateButtonState

/-- `CMainFrame::RefreshCurrentPrices`. -/
def refreshCurrentPrices : WindowCode Unit := do
  let w ← look
  if !w.loggedIn || listedContracts w.list = [] then return ()
  else
    let reply ← sendCommand (.getPrices (listedContracts w.list))
    let view := currentPrices w.list (if reply.1 then some reply.2 else none)
    change fun w => { w with
      list := view.1, statusText := (view.2.map ascii).getD w.statusText }

/-- `CMainFrame::RefreshAlerts`. -/
def refreshAlerts : WindowCode Unit := do
  let loggedIn ← ensureLoggedIn
  if !loggedIn then return ()
  else
    change fun w => { w with
      listTitle := if w.showDeletedOnly then ascii "Deleted Alerts"
        else ascii "Alert List" }
    let w ← look
    let reply ← sendCommand (.query w.username w.listChoice.status)
    if !reply.1 then
      change fun w => w.setStatus (ascii "Query timeout or connection error.")
    else
      change fun w => { w with list := CloudAlert.refreshAlerts w.listChoice reply.2 }
      refreshCurrentPrices
      change fun w => w.setStatus (ascii "Loaded " ++ fmtNat w.list.length ++
        if w.showDeletedOnly then ascii " deleted alert(s)." else ascii " alert(s).")

/-- `CMainFrame::ShowCommandError`. -/
def showCommandError (lines : List Bytes) (fallback : String) : WindowCode Unit := do
  change fun w => w.setStatus (errorText lines fallback)
  messageBox (errorText lines fallback)

/-- `CMainFrame::RunSimpleCommand`. -/
def runSimpleCommand (c : ClientCommand) (successText : String) : WindowCode Unit := do
  let loggedIn ← ensureLoggedIn
  if !loggedIn then return ()
  else
    let reply ← sendCommand c
    if reply.1 && isOk reply.2 then
      change fun w => (w.setStatus (ascii successText)).showToast (ascii successText)
    else showCommandError reply.2 "Command failed."

/-! ## Handlers -/

/-- `CMainFrame::OnSetEmail`. -/
def onSetEmail : WindowCode Unit := do
  let loggedIn ← ensureLoggedIn
  if !loggedIn then return ()
  else
    change fun w =>
      { w with emailStatus := ascii "Enter your password to confirm this change." }
    let changed ← doModal .changeEmail
    if changed then refreshAlerts else return ()

/-- `CMainFrame::OnLogout`. -/
def onLogout : WindowCode Unit := do
  change fun w => { w with priceTimer := false }
  stopConnection
  change fun w => (({ w with
    username := MainWindow.emptyText, email :=
      MainWindow.emptyText, showDeletedOnly := false,
    list := [] }.enterAddMode).setStatus (ascii "Logged out.")).updateButtonState
  change fun w =>
    { w with visible := false, loginStatus := ascii "Login with username and password." }
  let loggedIn ← doModal .login
  if loggedIn then
    change fun w => { w with visible := true }
    post .postLogin
  else post .close

/-- `CMainFrame::OnAddPrice`. -/
def onAddPrice : WindowCode Unit := do
  let w ← look
  match CloudAlert.onAddPrice w.username w.editor with
  | .error text => messageBox (ascii text)
  | .ok c =>
      runSimpleCommand c (if w.editor.selectedAlertType = alertTypePrice then
        "Price alert added." else "Time alert added.")
      refreshAlerts
      change MainWindow.enterAddMode

/-- `CMainFrame::OnModifyPrice`. -/
def onModifyPrice : WindowCode Unit := do
  let w ← look
  match CloudAlert.onModifyPrice ⟨w.idEdit, w.editAlertType, w.editor⟩ with
  | .error text => messageBox (ascii text)
  | .ok c =>
      runSimpleCommand c (if w.editAlertType = alertTypePrice then
        "Price alert modified." else "Time alert modified.")
      refreshAlerts
      change MainWindow.enterAddMode

/-- `CMainFrame::OnModifyTime`: the Cancel button. -/
def onModifyTime : WindowCode Unit := change MainWindow.enterAddMode

/-- The question of `CMainFrame::OnDeleteAlert`. -/
def deleteQuestion (id : Bytes) : Bytes := ascii "Delete alert " ++ id ++ ascii "?"

/-- `CMainFrame::OnDeleteAlert`. -/
def onDeleteAlert : WindowCode Unit := do
  let w ← look
  let id := trim w.idEdit
  match validateAlertId id with
  | .error text => messageBox (ascii text)
  | .ok _ =>
      let yes ← question (deleteQuestion id.val)
      if yes then
        runSimpleCommand (.delete id) "Alert deleted."
        refreshAlerts
        change MainWindow.enterAddMode
      else return ()

/-- `CMainFrame::OnRefresh`. -/
def onRefresh : WindowCode Unit := do
  refreshEmail
  refreshAlerts

/-- `CMainFrame::OnViewDeleted`. -/
def onViewDeleted : WindowCode Unit := do
  let w ← look
  if !w.loggedIn then return ()
  else
    change fun w =>
      { w with showDeletedOnly := !w.showDeletedOnly, statusSel := 0 }.updateButtonState
    refreshAlerts
    change MainWindow.enterAddMode

/-- `CMainFrame::OnStatusFilterChanged`. -/
def onStatusFilterChanged : WindowCode Unit := do
  let w ← look
  if !w.loggedIn then return ()
  else
    change fun w => { w with showDeletedOnly := false }.updateButtonState
    refreshAlerts

/-- The codes in the menu of `CMainFrame::OnPickContract`. -/
def contractCodes : List Field :=
  [⟨ascii "rb2609", by decide⟩, ⟨ascii "rb2607", by decide⟩, ⟨ascii "hc2609", by decide⟩,
    ⟨ascii "i2609", by decide⟩, ⟨ascii "MA609", by decide⟩, ⟨ascii "TA609", by decide⟩,
    ⟨ascii "jd2609", by decide⟩, ⟨ascii "m2609", by decide⟩, ⟨ascii "y2609", by decide⟩,
    ⟨ascii "p2609", by decide⟩, ⟨ascii "c2609", by decide⟩, ⟨ascii "CF609", by decide⟩,
    ⟨ascii "SR609", by decide⟩, ⟨ascii "au2612", by decide⟩, ⟨ascii "ag2612", by decide⟩]

/-- The id of its first item. -/
def baseId : ℕ := 7000

/-- `CMainFrame::OnPickContract`. -/
def onPickContract : WindowCode Unit := do
  let cmd : ℕ ← openDialog .contractMenu
  if baseId ≤ cmd then
    match contractCodes[cmd - baseId]? with
    | some code =>
        change fun w => { w with editor := { w.editor with contract := code } }.showToast
          (ascii "Contract selected: " ++ code.val)
    | none => return ()
  else return ()

/-- `CMainFrame::OnAlertTypeChanged`. -/
def onAlertTypeChanged : WindowCode Unit := do
  let w ← look
  if !w.editMode then change MainWindow.updateEditorMode else return ()

/-- `CMainFrame::OnListItemChanged`, when the item gets selected. -/
def onListItemChanged (item : ℕ) : WindowCode Unit := change fun w => w.enterEditMode item

/-- `CMainFrame::OnTriggered`. -/
def onTriggered (line : Text) : WindowCode Unit := do
  change fun w => (w.setStatus line).showToast
    [0xD4, 0xA4, 0xBE, 0xAF, 0xD2, 0xD1, 0xB4, 0xA5, 0xB7, 0xA2]
  messageBox (CloudAlert.onTriggered line)
  refreshAlerts

/-- `CMainFrame::OnPostLogin`. -/
def onPostLogin : WindowCode Unit := do
  let w ← look
  if !w.loggedIn then return ()
  else
    change fun w => w.setStatus (ascii "Loading account data...")
    refreshEmail
    refreshAlerts
    change fun w => { w with priceTimer := true }.updateButtonState

/-- `CMainFrame::OnDisconnected`. -/
def onDisconnected : WindowCode Unit := do
  let w ← look
  if w.closing then return ()
  else
    change fun w => ({ w.setStatus (ascii
        "Disconnected from server. Please check whether Server.exe is still running.") with
      priceTimer := false, connected := false, username := MainWindow.emptyText,
      email := MainWindow.emptyText, showDeletedOnly := false,
      list := [] }.enterAddMode).updateButtonState

/-- `CMainFrame::OnClose`. -/
def onClose : WindowCode Unit := do
  change fun w => { w with priceTimer := false }
  stopConnection
  change fun w => { w with closed := true }

/-- `CMainFrame::OnTimer` for `TIMER_TOAST`. -/
def onToastTimer : WindowCode Unit :=
  change fun w => { w with toastTimer := false, toastText := none }

/-- `CMainFrame::OnTimer` for `TIMER_PRICE_REFRESH`. -/
def onPriceTimer : WindowCode Unit := do
  let w ← look
  if w.loggedIn then refreshCurrentPrices else return ()

/-- `CLoginDlg::OnLogin`. -/
def loginDlgOnLogin (user password : Field) : WindowCode Unit :=
  match LoginDlg.onLogin user password with
  | .error text => change fun w => { w with loginStatus := ascii text }
  | .ok _ => do
      let error ← loginUser (trim user) (trim password)
      match error with
      | none => setDialogEnded true
      | some text => change fun w => { w with loginStatus := text }

/-- `CLoginDlg::OnRegister`. -/
def loginDlgOnRegister : WindowCode Unit := do
  change fun w => { w with
    registerStatus := ascii "Email will be bound to this account." }
  let registered ← doModal .register
  if registered then
    change fun w => { w with
      loginStatus := ascii "Registration succeeded. Please login." }
  else return ()

/-- `CRegisterDlg::OnSubmit`. -/
def registerDlgOnSubmit (user password confirm email : Field) : WindowCode Unit :=
  match RegisterDlg.onSubmit user password confirm email with
  | .error text => change fun w => { w with registerStatus := ascii text }
  | .ok _ => do
      let error ← registerUser (trim user) (trim password) (trim email)
      match error with
      | none =>
          messageBox (ascii "Registration succeeded. Please login.")
          setDialogEnded true
      | some text => change fun w => { w with registerStatus := text }

/-- `CChangeEmailDlg::OnSubmit`. -/
def changeEmailDlgOnSubmit (password email : Field) : WindowCode Unit :=
  let password := trim password
  let email := trim email
  if password.val = [] ∨ email.val = [] then
    change fun w => { w with emailStatus := ascii "Password and new email are required." }
  else if 64 ∉ email.val then
    change fun w => { w with emailStatus := ascii "Please enter a valid email address." }
  else do
    let error ← changeEmail password email
    match error with
    | none => setDialogEnded true
    | some text => change fun w => { w with emailStatus := text }

/-- `CMFCClientApp::InitInstance`, once the window has been created. -/
def initInstance : WindowCode Unit := do
  let loggedIn ← doModal .login
  if loggedIn then
    change fun w => { w with visible := true }
    post .postLogin
  else change fun w => { w with closed := true }

end CMainFrame

/-! ## The message loop -/

/-- What the window's thread gets, and what happens meanwhile. -/
inductive WindowMessage where
  -- the user, at the window
  | setEmail
  | logout
  | addPrice
  | modifyPrice
  | modifyTime
  | deleteAlert
  | refresh
  | viewDeleted
  | pickContract
  | statusFilter (sel : ℤ)
  | alertType (sel : ℤ)
  | listItem (item : ℕ)
  | typed (contract price timeText : Field) (condSel : ℤ)
  | closeWindow
  -- the user, at the dialogs
  | loginDlgLogin (user password : Field)
  | loginDlgRegister
  | registerDlgSubmit (user password confirm email : Field)
  | changeEmailDlgSubmit (password email : Field)
  -- the queue and the timers
  | posted (m : Posted)
  | toastTimer
  | priceTimer
  -- the notification worker, the receiver thread, the server and its other threads
  | push (line : Text)
  | receiverEnds
  | sessionCloses
  | otherCall (c : Call)

/-- The handler of a message. -/
def WindowMessage.handler : WindowMessage → WindowCode Unit
  | setEmail => CMainFrame.onSetEmail
  | logout => CMainFrame.onLogout
  | addPrice => CMainFrame.onAddPrice
  | modifyPrice => CMainFrame.onModifyPrice
  | modifyTime => CMainFrame.onModifyTime
  | deleteAlert => CMainFrame.onDeleteAlert
  | refresh => CMainFrame.onRefresh
  | viewDeleted => CMainFrame.onViewDeleted
  | pickContract => CMainFrame.onPickContract
  | statusFilter _ => CMainFrame.onStatusFilterChanged
  | alertType _ => CMainFrame.onAlertTypeChanged
  | listItem item => CMainFrame.onListItemChanged item
  | closeWindow => CMainFrame.onClose
  | loginDlgLogin user password => CMainFrame.loginDlgOnLogin user password
  | loginDlgRegister => CMainFrame.loginDlgOnRegister
  | registerDlgSubmit user password confirm email =>
      CMainFrame.registerDlgOnSubmit user password confirm email
  | changeEmailDlgSubmit password email =>
      CMainFrame.changeEmailDlgOnSubmit password email
  | posted (.triggered line) => CMainFrame.onTriggered line
  | posted .disconnected => CMainFrame.onDisconnected
  | posted .postLogin => CMainFrame.onPostLogin
  | posted .close => CMainFrame.onClose
  | toastTimer => CMainFrame.onToastTimer
  | priceTimer => CMainFrame.onPriceTimer
  | typed _ _ _ _ | push _ | receiverEnds | sessionCloses | otherCall _ => return ()

/-- The button of a message, if it comes from one. -/
def WindowMessage.button (b : ButtonState) : WindowMessage → Bool
  | setEmail => b.setEmailBtn
  | logout => b.logoutBtn
  | addPrice => b.addPriceBtn
  | modifyPrice => b.modPriceBtn
  | modifyTime => b.modTimeBtn
  | deleteAlert => b.deleteBtn
  | refresh => b.refreshBtn
  | viewDeleted => b.deletedViewBtn
  | pickContract => b.contractPickBtn
  | _ => true

/-- When a message can come while the dialogs `ds` are open. A dialog disables the window,
and one for which `EndDialog` has been called handles no more messages. -/
def WindowMessage.possible (m : WindowMessage) (ds : List WindowDialog) (s : Desktop) :
    Bool :=
  !s.window.closed && !s.dialogEnded && match m with
  | loginDlgLogin _ _ | loginDlgRegister => ds.head? = some .login
  | registerDlgSubmit _ _ _ _ => ds.head? = some .register
  | changeEmailDlgSubmit _ _ => ds.head? = some .changeEmail
  | posted m => s.posted.head? = some m
  | toastTimer => s.window.toastTimer
  | priceTimer => s.window.priceTimer
  | push line => s.sessionOpen && isTriggered line
  | receiverEnds => s.window.recvThread && !s.window.closing
  | sessionCloses | otherCall _ => true
  | alertType _ => ds = [] && s.window.editorView.typeCombo
  | m => ds = [] && m.button s.window.buttons

/-- What is changed before the handler starts. -/
def WindowMessage.effect (s : Desktop) : WindowMessage → Desktop
  | statusFilter sel => { s with window := { s.window with statusSel := sel } }
  | alertType sel => { s with window := { s.window with
      editor := { s.window.editor with typeSel := sel } } }
  | typed contract price timeText condSel => { s with window := { s.window with
      editor := { s.window.editor with contract, price, timeText, condSel } } }
  | posted _ => { s with posted := s.posted.tail }
  | push line => { s with
      heard := s.heard ++ [line.val]
      posted := if s.window.recvThread then s.posted ++ [.triggered line] else s.posted }
  | receiverEnds => { s with posted := s.posted ++ [.disconnected] }
  | sessionCloses => { s with sessionOpen := false }
  | otherCall c => { s with world := (exec c s.world).2 }
  | _ => s

/-- How a dialog can be closed. The Enter key calls `OnOK`, which the registration and the
e-mail dialogs leave to `CDialog`: it closes them at any time. What becomes of the
handlers that wait when the window is destroyed is left out. -/
def WindowDialog.closes (d : WindowDialog) (result : ℕ) (s : Desktop) : Bool :=
  !s.window.closed && match d with
  | .messageBox _ => result = CMainFrame.idOk
  | .question _ => result = CMainFrame.idYes || result = CMainFrame.idNo
  | .contractMenu => result = 0 || CMainFrame.baseId ≤ result &&
      result < CMainFrame.baseId + CMainFrame.contractCodes.length
  | .login =>
      if s.dialogEnded then result = CMainFrame.idOk else result = CMainFrame.idCancel
  | .register | .changeEmail =>
      result = CMainFrame.idOk || !s.dialogEnded && result = CMainFrame.idCancel

/-- The thread of the window. -/
def windowLoop : MessageLoop WindowOp.Ans WindowDialog ℕ Desktop WindowMessage where
  exec := execWindow
  handler := WindowMessage.handler
  take m ds s := if m.possible ds s then some (m.effect s) else none
  closes := WindowDialog.closes

/-- The window after `OnCreate`. -/
def MainWindow.created : MainWindow :=
  MainWindow.updateButtonState <| MainWindow.enterAddMode {
    connected := false
    closing := false
    editMode := false
    showDeletedOnly := false
    editAlertType := alertTypePrice
    username := MainWindow.emptyText
    email := MainWindow.emptyText
    recvThread := false
    list := []
    idEdit := MainWindow.emptyText
    editor := MainWindow.newEditor
    statusSel := 0
    buttons := ⟨true, true, true, true, true, true, true, true, true,
      ascii "Deleted Only", ascii "Not logged in", ascii "Email: -",
      ascii "Server: 127.0.0.1:8888 | Offline"⟩
    editorView := ⟨ascii "New Alert", true, true, true⟩
    listTitle := ascii "Alert List"
    statusText := ascii "Disconnected"
    toastText := none
    toastTimer := false
    priceTimer := false
    visible := false
    closed := false
    loginStatus := ascii "Login with username and password."
    registerStatus := []
    emailStatus := [] }

/-- The client when it is started. -/
def Desktop.start (world : World) (network : ℕ → Outcome) :
    MessageLoop.Nested WindowOp.Ans WindowDialog ℕ Desktop :=
  windowLoop.enter CMainFrame.initInstance
    { window := .created
      posted := []
      dialogEnded := false
      session := .new 0
      sessionOpen := false
      sockets := 0
      heard := []
      world := world
      network := network
      sent := [] } []

end CloudAlert
