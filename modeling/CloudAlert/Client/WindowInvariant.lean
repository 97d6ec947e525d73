import CloudAlert.Client.Window

/-!
# The invariant of the window

`DesktopOk` is what the window and its connection keep while dialogs are open, with
replies late or lost and other threads at work on the server. The ids in the list come
from ALERT lines, and a session prints ALERT lines of its own user only
(`dispatch_listsOwn`); so the rows of the list and the alert in the editor are alerts of
the user of the session.

The specs say of each operation that it keeps the invariant. They speak of the runs in
which the commands fit the receive buffer of the session: of a longer one the session
reads a part, and then the rest as another command.
-/

namespace CloudAlert

open Program MessageLoop

/-! ## ALERT lines -/

/-- The id is that of an alert of the user. -/
def Owned (w : World) (userId : ℤ) (id : Bytes) : Prop :=
  ∃ r ∈ w.db.alerts.rows, r.userId = userId ∧ fmtInt r.id = id

/-- The line begins like an ALERT line. -/
def isAlert (line : Bytes) : Bool := startsWith (ascii "ALERT ") line

/-- If the line is an ALERT line, it is about an alert of the user. -/
def ListsOwn (w : World) (userId : ℤ) (line : Bytes) : Prop :=
  isAlert line = true → ∃ id, (clientSplit line)[1]? = some id ∧ Owned w userId id

section

variable {w w' : World} {userId : ℤ}

theorem Owned.after {id : Bytes} (h : Owned w userId id) (c : Call) :
    Owned (exec c w).2 userId id := by
  obtain ⟨r, hr, howner, hid⟩ := h
  exact ⟨c.apply r, mem_alerts_after c hr,
    (apply_userId c r).trans howner, by rw [apply_id, hid]⟩

theorem Owned.after_run {id : Bytes} {α : Type} (h : Owned w userId id) (p : Action α) :
    Owned (run exec p w).2 userId id :=
  run_invariant exec (fun w => Owned w userId id) (fun c _ h => h.after c) p h

theorem ListsOwn.mono {userId' : ℤ} {line : Bytes} (h : ListsOwn w userId line)
    (hmono : ∀ id, Owned w userId id → Owned w' userId' id) : ListsOwn w' userId' line :=
  fun hline => (h hline).imp fun id hid => hid.imp_right (hmono id)

theorem not_isAlert {word line : Bytes} (h : word <+: line) (hne : word.head? ≠ some 65)
    (hword : word ≠ []) : isAlert line = false :=
  startsWith_other h hne ⟨hword, by decide⟩

theorem listsOwn_alertLine {r : AlertRecord} (hr : r ∈ w.db.alerts.rows) {line : Bytes}
    (h : alertLine r = some line) : ListsOwn w r.userId line := by
  intro _
  obtain rfl := snprintf_eq_some h
  refine ⟨fmtInt r.id, ?_, r, hr, rfl, rfl⟩
  rw [clientSplit, unwords_cons_cons, splitLine_token_append (by decide),
    unwords_cons_cons, splitLine_token_append (isToken_fmtInt _)]
  rfl

/-- The lines of a reply are no ALERT lines. -/
def NoAlert (out : Session × Reply) : Prop := ∀ line ∈ out.2.lines, isAlert line = false

theorem IsStatus.not_isAlert {line : Bytes} (h : IsStatus line) :
    isAlert line = false := by
  rcases h.1 with hok | herr
  · exact CloudAlert.not_isAlert hok (by decide) (by decide)
  · exact CloudAlert.not_isAlert herr (by decide) (by decide)

/-- The code sends no ALERT line. -/
abbrev Silent (h : Handler) : Prop := h.Respects (fun _ => True) (fun _ _ => True) NoAlert

theorem silent_line {self : Session} {line : Bytes} (h : isAlert line = false) :
    Silent (self.sendLine line) := List.forall_mem_singleton.mpr h

theorem silent_of_says {h : Handler} (hstatus : Says (fun _ _ => True) h) : Silent h :=
  hstatus.mono (fun _ _ => trivial) (fun _ _ _ hr => hr) fun out hreply => by
    obtain ⟨resp, hresp, hstatus⟩ := hreply
    rw [NoAlert, hresp]
    exact List.forall_mem_singleton.mpr hstatus.not_isAlert

variable (self : Session) (line : Bytes)

theorem handleGetEmail_silent : Silent (handleGetEmail self line) := by
  unfold handleGetEmail
  split
  · exact silent_line (by decide)
  · split
    · split
      · exact silent_line (by decide)
      · refine ⟨trivial, fun email _ => silent_line ?_⟩
        exact not_isAlert (List.prefix_append (ascii "OK ") _) (by decide) (by decide)
    · exact silent_line (by decide)

theorem getPricesLoop_silent (contracts : List Bytes) {sent : List Bytes}
    (hsent : ∀ line ∈ sent, isAlert line = false) :
    Silent (getPricesLoop self contracts sent) := by
  induction contracts generalizing sent with
  | nil =>
      exact List.forall_mem_append.mpr ⟨hsent, List.forall_mem_singleton.mpr (by decide)⟩
  | cons c rest ih =>
      by_cases hne : c = []
      · rw [getPricesLoop, if_pos hne]
        exact ih hsent
      · rw [getPricesLoop_cons self hne]
        refine ⟨trivial, fun _ _ => ⟨trivial, fun lastPrice _ => ?_⟩⟩
        beta_reduce
        cases hline : priceLine c lastPrice with
        | none => exact hsent
        | some line =>
            rw [priceLine_eq] at hline
            obtain rfl := snprintf_eq_some hline
            refine ih (List.forall_mem_append.mpr ⟨hsent,
                List.forall_mem_singleton.mpr ?_⟩)
            exact not_isAlert ⟨_, rfl⟩ (by decide) (by decide)

theorem handleGetPrices_silent : Silent (handleGetPrices self line) := by
  unfold handleGetPrices
  split
  · exact silent_line (by decide)
  · split
    · exact getPricesLoop_silent self _ (List.forall_mem_nil _)
    · exact silent_line (by decide)

/-- Only QUERY is answered with ALERT lines. -/
theorem dispatch_silent (h : commandWord line ≠ ascii "QUERY") :
    Silent (dispatch self line) :=
  dispatch_rule (P := Silent) self line
    (fun _ => silent_of_says (handleRegister_saysStatus self line))
    (fun _ => silent_of_says (handleLogin_saysStatus self line))
    (fun _ => silent_of_says (handleAddPrice_saysStatus self line))
    (fun _ => silent_of_says (handleAddTime_saysStatus self line))
    (fun _ => silent_of_says (handleDelete_saysStatus self line))
    (fun _ => silent_of_says (handleModifyPrice_saysStatus self line))
    (fun _ => silent_of_says (handleModifyTime_saysStatus self line))
    (fun hword => absurd hword h)
    (fun _ => silent_of_says (handleSetEmail_saysStatus self line))
    (fun _ => handleGetEmail_silent self line) (fun _ => handleGetPrices_silent self line)
    (silent_line (by decide))

theorem alertLines_own (records : List AlertRecord)
    (h : ∀ r ∈ records, r ∈ w.db.alerts.rows ∧ r.userId = userId) :
    ∀ line ∈ (alertLines records).lines, ListsOwn w userId line := by
  induction records with
  | nil => exact List.forall_mem_singleton.mpr fun hend => absurd hend (by decide)
  | cons r rest ih =>
      obtain ⟨⟨hr, howner⟩, hrest⟩ := List.forall_mem_cons.mp h
      rw [alertLines]
      cases hline : alertLine r with
      | none => exact List.forall_mem_nil _
      | some line =>
          exact List.forall_mem_cons.mpr ⟨howner ▸ listsOwn_alertLine hr hline, ih hrest⟩

theorem Silent.lines {h : Handler} (hsilent : Silent h) (w : World) :
    ∀ line ∈ (run exec h w).1.2.lines, isAlert line = false := by
  have hno : NoAlert (run exec h w).1 :=
    (hsilent.run (fun _ => True) (fun _ _ _ _ => ⟨trivial, trivial⟩) trivial).2
  exact hno

/-- A session prints ALERT lines of its own user only. -/
theorem dispatch_listsOwn (w : World) :
    ∀ reply ∈ (run exec (dispatch self line) w).1.2.lines,
    ListsOwn w self.userId reply := by
  have hsilent : ∀ {h : Handler}, Silent h →
      ∀ reply ∈ (run exec h w).1.2.lines, ListsOwn w self.userId reply := by
    intro h hsilent reply hreply hline
    rw [hsilent.lines w reply hreply] at hline
    cases hline
  by_cases h : commandWord line = ascii "QUERY"
  · rw [dispatch_query self line h]
    unfold handleQuery
    split
    · exact hsilent (silent_line (by decide))
    · split
      · rename_i status _ _
        refine alertLines_own
          (w.db.queryAlerts .none self.userId (atoi status)) fun r hr => ?_
        rw [AlertDB.queryAlerts] at hr
        split at hr
        · rw [Faults.none_query, Table.mem_select] at hr
          exact ⟨hr.1, of_decide_eq_true hr.2⟩
        · rw [Faults.none_query, Table.mem_select] at hr
          exact ⟨hr.1, (of_decide_eq_true hr.2).1⟩
      · exact hsilent (silent_line (by decide))
  · exact hsilent (dispatch_silent self line h)

end

/-! ## The invariant -/

/-- The commands that are sent before a login. -/
def ClientCommand.forAccount : ClientCommand → Bool
  | .login _ _ | .register _ _ _ => true
  | _ => false

/-- The id of the alert a command is for. -/
def ClientCommand.alertId : ClientCommand → Option Bytes
  | .modifyPrice id _ _ _ | .modifyTime id _ _ | .delete id => some id.val
  | _ => none

/-- The name a command gives, where the server does not take one to log in or to
register. -/
def ClientCommand.name : ClientCommand → Option Field
  | .setEmail user _ _ | .addPrice user _ _ _ | .addTime user _ _ | .query user _
  | .getEmail user => some user
  | _ => none

/-- A command other than LOGIN and REGISTER is sent while a user is logged in and gives
the name of that user. -/
structure RightCommand (e : Sent) : Prop where
  loggedIn : e.command.forAccount = false → e.username ≠ MainWindow.emptyText
  name : ∀ user, e.command.name = some user → user = e.username

/-- If the command is for an alert, it is for one of the user of the session that gets
it. -/
def ForOwnAlert (e : Sent) : Prop :=
  ∀ id, e.command.alertId = some id → Owned e.world e.session.userId id

/-- No command is too long for the receive buffer of the session. -/
def AllFit (sent : List Sent) : Prop := ∀ e ∈ sent, e.command.text.length ≤ recvBufSize

instance (sent : List Sent) : Decidable (AllFit sent) :=
  inferInstanceAs (Decidable (∀ _ ∈ _, _))

/-- The controls of the window agree with its state, and what belongs to a login is gone
without one. -/
structure MainWindowOk (w : MainWindow) : Prop where
  buttons : w.buttons = w.buttonState
  editorView : w.editorView = w.editorState
  connected : w.username ≠ MainWindow.emptyText → w.connected = true
  list : w.username = MainWindow.emptyText → w.list = []
  editMode : w.username = MainWindow.emptyText → w.editMode = false
  showDeletedOnly : w.username = MainWindow.emptyText → w.showDeletedOnly = false
  priceTimer : w.username = MainWindow.emptyText → w.priceTimer = false
  toast : w.toastText ≠ none → w.toastTimer = true

/-- The alerts that the window shows or asks about are alerts of the user of the session,
and the ALERT lines that have come are about such. There are none of them before a
login. -/
structure OwnAlerts (ds : List WindowDialog) (s : Desktop) : Prop where
  list : ∀ row ∈ s.window.list, Owned s.world s.session.userId row.id.val
  edit : s.window.editMode = true →
    Owned s.world s.session.userId (trim s.window.idEdit).val
  asked : s.window.username ≠ MainWindow.emptyText →
    ∀ id, .question (CMainFrame.deleteQuestion id) ∈ ds →
    Owned s.world s.session.userId id
  heard : s.window.connected = true → ∀ line ∈ s.heard,
    ListsOwn s.world s.session.userId line
  fresh : s.window.connected = true → s.window.username = MainWindow.emptyText →
    ∀ line ∈ s.heard, isAlert line = false
  sent : ∀ e ∈ s.sent, ForOwnAlert e

/-- A dialog that `EndDialog` can close. -/
def WindowDialog.isModal : WindowDialog → Bool
  | .login | .register | .changeEmail => true
  | _ => false

/-- What the window and its connection keep while the dialogs `ds` are open. -/
structure DesktopOk (ds : List WindowDialog) (s : Desktop) : Prop where
  window : s.window.closed = false → MainWindowOk s.window
  login : .login ∈ ds → s.window.username = MainWindow.emptyText ∨
    s.dialogEnded = true ∧ ds.head? = some .login
  register : .register ∈ ds → .login ∈ ds
  asked : ∀ id, .question (CMainFrame.deleteQuestion id) ∈ ds → .login ∉ ds
  ended : s.dialogEnded = true → ∃ d, ds.head? = some d ∧ d.isModal = true
  sent : ∀ e ∈ s.sent, RightCommand e
  own : AllFit s.sent → OwnAlerts ds s

/-- The state while a handler is at work. -/
structure AtWork (ds : List WindowDialog) (s : Desktop) :
    Prop extends DesktopOk ds s where
  closed : s.window.closed = false
  notEnded : s.dialogEnded = false

theorem AtWork.windowOk {ds : List WindowDialog} {s : Desktop} (h : AtWork ds s) :
    MainWindowOk s.window := h.window h.closed

/-! ## The logic of the handlers -/

/-- The handler keeps the invariant and ends in `post`. -/
abbrev Ensures (ds : List WindowDialog) {α : Type} (p : WindowCode α) (s : Desktop)
    (post : α → Desktop → Prop) : Prop :=
  windowLoop.wp DesktopOk ds post p s

section

variable {ds : List WindowDialog} {s s' : Desktop} {β : Type}

section

variable {inv : List WindowDialog → Desktop → Prop} {post : β → Desktop → Prop}

theorem wp_perform_bind (o : WindowOp) {f : o.Ans → WindowCode β}
    (h : windowLoop.wp inv ds post (f (execWindow o s).1) (execWindow o s).2) :
    windowLoop.wp inv ds post (CMainFrame.perform o >>= f) s := h

theorem wp_look_bind {f : MainWindow → WindowCode β}
    (h : windowLoop.wp inv ds post (f s.window) s) :
    windowLoop.wp inv ds post (CMainFrame.look >>= f) s := h

theorem wp_change_bind {g : MainWindow → MainWindow} {f : Unit → WindowCode β}
    (h : windowLoop.wp inv ds post (f ()) { s with window := g s.window }) :
    windowLoop.wp inv ds post (CMainFrame.change g >>= f) s := h

end

/-! ## Changes of the window -/

/-- What the window may become while it stays connected as it is. -/
structure MayShow (s : Desktop) (w : MainWindow) : Prop extends MainWindowOk w where
  closed : w.closed = false
  sameConnected : w.connected = s.window.connected
  sameUsername : w.username = s.window.username
  ownList : AllFit s.sent → ∀ row ∈ w.list, Owned s.world s.session.userId row.id.val
  ownEdit : AllFit s.sent → w.editMode = true →
    Owned s.world s.session.userId (trim w.idEdit).val

theorem AtWork.mayShow (h : AtWork ds s) : MayShow s s.window :=
  { h.windowOk with
    closed := h.closed
    sameConnected := rfl
    sameUsername := rfl
    ownList := fun hfit => (h.own hfit).list
    ownEdit := fun hfit => (h.own hfit).edit }

theorem AtWork.show (h : AtWork ds s) {w : MainWindow} (hw : MayShow s w) :
    AtWork ds { s with window := w } where
  window _ := hw.toMainWindowOk
  login hlogin := (h.login hlogin).imp_left hw.sameUsername.trans
  register := h.register
  asked := h.asked
  ended := h.ended
  sent := h.sent
  own hfit :=
    { list := hw.ownList hfit
      edit := hw.ownEdit hfit
      asked := fun hne => (h.own hfit).asked (hw.sameUsername ▸ hne)
      heard := fun hconn => (h.own hfit).heard (hw.sameConnected ▸ hconn)
      fresh := fun hconn huser =>
        (h.own hfit).fresh (hw.sameConnected ▸ hconn) (hw.sameUsername ▸ huser)
      sent := (h.own hfit).sent }
  closed := hw.closed
  notEnded := h.notEnded

theorem AtWork.guest (h : AtWork ds s) (hw : MainWindowOk s'.window)
    (hclosed : s'.window.closed = false)
    (huser : s'.window.username = MainWindow.emptyText)
    (hheard : AllFit s.sent → s'.window.connected = true → ∀ line ∈ s'.heard,
      isAlert line = false)
    (hended : s'.dialogEnded = false) (hsent : s'.sent = s.sent) : AtWork ds s' where
  window _ := hw
  login _ := .inl huser
  register := h.register
  asked := h.asked
  ended hended' := by
    rw [hended] at hended'
    cases hended'
  sent := hsent ▸ h.sent
  own hfit :=
    { list := fun row hrow => absurd hrow (by rw [hw.list huser]; exact List.not_mem_nil)
      edit := fun hedit =>
        absurd hedit (by rw [hw.editMode huser]; exact Bool.false_ne_true)
      asked := fun hne => absurd huser hne
      heard := fun hconn line hline halert =>
        absurd halert
          (by rw [hheard (hsent ▸ hfit) hconn line hline]; exact Bool.false_ne_true)
      fresh := fun hconn _ => hheard (hsent ▸ hfit) hconn
      sent := hsent ▸ (h.own (hsent ▸ hfit)).sent }
  closed := hclosed
  notEnded := hended

/-! ## Commands -/

/-- The reply in time is among the lines the session has sent. -/
theorem promptReply_heard {c : ClientCommand} {lines : List Bytes}
    (h : promptReply s.world s.session c = some lines) :
    ∀ line ∈ lines, line ∈ (s.serve c).heard := by
  intro line hline
  unfold promptReply at h
  unfold Desktop.serve
  cases hreceived : received c.text with
  | nil =>
      rw [hreceived] at h
      cases h
  | cons sent rest =>
      rw [hreceived] at h
      exact List.mem_append_right _ (mem_of_takeReply h line hline)

/-- The state once a command has been sent. -/
def Desktop.sending (s : Desktop) (c : ClientCommand) : Desktop :=
  { s.advance with sent := s.sent ++ [⟨c, s.window.username, s.session, s.world⟩] }

/-- What an exchange leaves: the session has got the command or has not, and the lines
that are returned have been sent. -/
theorem exchange_cases (s : Desktop) (c : ClientCommand) :
    ((s.exchange c).2 = s.sending c ∨ (s.exchange c).2 = (s.sending c).serve c) ∧
      ∀ line ∈ (s.exchange c).1.2, line ∈ (s.exchange c).2.heard := by
  have hchosen : ∀ (heard : List Bytes) (ns : List ℕ),
      ∀ line ∈ ns.filterMap fun n => heard[n]?, line ∈ heard := by
    intro heard ns line hline
    obtain ⟨n, -, hn⟩ := List.mem_filterMap.mp hline
    exact List.mem_of_getElem? hn
  have hafter : (if s.sessionOpen = true then (s.sending c).serve c else s.sending c) =
      s.sending c ∨
      (if s.sessionOpen = true then (s.sending c).serve c else s.sending c) =
        (s.sending c).serve c := by
    split
    · exact .inr rfl
    · exact .inl rfl
  have hprompt : ∀ lines, promptReply s.world s.session c = some lines →
      ∀ line ∈ lines, line ∈ ((s.sending c).serve c).heard :=
    fun lines h => promptReply_heard h
  unfold Desktop.exchange
  dsimp only
  split
  · exact ⟨.inl rfl, List.forall_mem_nil _⟩
  · cases s.outcome.other with
    | some other => exact ⟨hafter, hchosen _ _⟩
    | none =>
        cases hreply : promptReply s.world s.session c with
        | none => exact ⟨hafter, List.forall_mem_nil _⟩
        | some lines =>
            dsimp only
            cases hopen : s.sessionOpen with
            | true => exact ⟨.inr rfl, hprompt lines hreply⟩
            | false => exact ⟨.inl rfl, List.forall_mem_nil _⟩

theorem forAccount_words (c : ClientCommand) :
    (c.forAccount = false → c.word ≠ ascii "LOGIN") ∧
      (c.forAccount = true → c.word ≠ ascii "QUERY") := by
  cases c <;> dsimp only [ClientCommand.forAccount, ClientCommand.word] <;> decide

/-- A command that the window may send. -/
structure MaySend (s : Desktop) (c : ClientCommand) : Prop where
  account : c.forAccount = true ↔ s.window.username = MainWindow.emptyText
  name : ∀ user, c.name = some user → user = s.window.username
  alert : AllFit s.sent → ∀ id, c.alertId = some id → Owned s.world s.session.userId id

theorem AtWork.sending (h : AtWork ds s) {c : ClientCommand} (hc : MaySend s c) :
    AtWork ds (s.sending c) :=
  { h with
    sent := List.forall_mem_append.mpr ⟨h.sent, List.forall_mem_singleton.mpr
      { loggedIn := fun haccount huser =>
          absurd (hc.account.mpr huser) (by rw [haccount]; exact Bool.false_ne_true)
        name := hc.name }⟩
    own := fun hfit => by
      have hbefore : AllFit s.sent := (List.forall_mem_append.mp hfit).1
      exact { h.own hbefore with
        sent := List.forall_mem_append.mpr ⟨(h.own hbefore).sent,
          List.forall_mem_singleton.mpr (hc.alert hbefore)⟩ } }

/-- The session gets a command that is sent while a user is logged in, or to log in or to
register while none is. -/
theorem AtWork.serve (h : AtWork ds s) {c : ClientCommand}
    (haccount : c.forAccount = true ↔ s.window.username = MainWindow.emptyText)
    (hfits : AllFit s.sent → c.text.length ≤ recvBufSize) : AtWork ds (s.serve c) := by
  obtain ⟨hnotLogin, hnotQuery⟩ := forAccount_words c
  rw [← c.commandWord_text] at hnotLogin hnotQuery
  have hsame : (s.serve c).window = s.window ∧ (s.serve c).dialogEnded = s.dialogEnded ∧
      (s.serve c).sent = s.sent := by
    unfold Desktop.serve
    split <;> exact ⟨rfl, rfl, rfl⟩
  obtain ⟨hwindow, hended, hsent⟩ := hsame
  have hserve : AllFit s.sent → s.serve c =
      let out := run exec (dispatch s.session c.text) s.world
      { s with
        session := out.1.1, sessionOpen := !out.1.2.ended, heard :=
          s.heard ++ out.1.2.lines,
        world := out.2 } := by
    intro hfit
    unfold Desktop.serve
    rw [(received_text_iff c).mpr (hfits hfit)]
  by_cases huser : s.window.username = MainWindow.emptyText
  · have hsilent := dispatch_silent s.session c.text (hnotQuery (haccount.mpr huser))
    refine h.guest (hwindow ▸ h.windowOk) (hwindow ▸ h.closed) (hwindow ▸ huser)
      (fun hfit hconn => ?_) (hended.trans h.notEnded) hsent
    rw [hwindow] at hconn
    rw [hserve hfit]
    exact List.forall_mem_append.mpr ⟨(h.own hfit).fresh hconn huser, hsilent.lines _⟩
  · have hc : c.forAccount = false := Bool.eq_false_iff.mpr fun hc =>
      huser (haccount.mp hc)
    have hsession : (run exec (dispatch s.session c.text) s.world).1.1 = s.session :=
      ((dispatch_run s.session c.text (fun _ => True) (fun _ _ _ _ => trivial)
        trivial).2.2).resolve_right (hnotLogin hc)
    have hmono : ∀ {id}, Owned s.world s.session.userId id →
        Owned (run exec (dispatch s.session c.text) s.world).2
          (run exec (dispatch s.session c.text) s.world).1.1.userId id := by
      intro id howned
      rw [hsession]
      exact howned.after_run _
    have hnew := dispatch_listsOwn s.session c.text s.world
    have hown : AllFit s.sent → OwnAlerts ds (s.serve c) := by
      intro hfit
      rw [hserve hfit]
      exact
        { list := fun row hrow => hmono ((h.own hfit).list row hrow)
          edit := fun hedit => hmono ((h.own hfit).edit hedit)
          asked := fun hne id hid => hmono ((h.own hfit).asked hne id hid)
          heard := fun hconn => List.forall_mem_append.mpr
            ⟨fun line hline => ((h.own hfit).heard hconn line hline).mono fun _ => hmono,
              fun line hline => (hnew line hline).mono fun _ => hmono⟩
          fresh := fun _ hempty => absurd hempty huser
          sent := (h.own hfit).sent }
    exact
      { window := fun _ => hwindow ▸ h.windowOk
        login := fun hlogin => hwindow ▸ hended ▸ h.login hlogin
        register := h.register
        asked := h.asked
        ended := fun he => h.ended (hended ▸ he)
        sent := hsent ▸ h.sent
        own := fun hfit => hown (hsent ▸ hfit)
        closed := hwindow ▸ h.closed
        notEnded := hended.trans h.notEnded }

/-- What `SendCommand` ensures: the window is as it was, and the lines have been sent by
the session. -/
structure Replied (ds : List WindowDialog) (s : Desktop) (lines : List Bytes)
    (s' : Desktop) : Prop extends AtWork ds s' where
  sameWindow : s'.window = s.window
  lines : ∀ line ∈ lines, line ∈ s'.heard

theorem sendCommand_ensures (h : AtWork ds s) {c : ClientCommand} (hc : MaySend s c) :
    Ensures ds (CMainFrame.sendCommand c) s fun reply => Replied ds s reply.2 := by
  refine wp_look_bind ?_
  split
  · obtain ⟨hcases, hlines⟩ := exchange_cases s c
    have hsending := h.sending hc
    have hwindow : ((s.sending c).serve c).window = s.window := by
      unfold Desktop.serve
      split <;> rfl
    have hafter : AtWork ds (s.exchange c).2 ∧ (s.exchange c).2.window = s.window := by
      rcases hcases with heq | heq
      · rw [heq]
        exact ⟨hsending, rfl⟩
      · rw [heq]
        refine ⟨hsending.serve hc.account fun hfit => ?_, hwindow⟩
        exact hfit _ (List.mem_append_right _ (List.mem_singleton_self _))
    exact ⟨hafter.1, hafter.2, hlines⟩
  · exact ⟨h, rfl, List.forall_mem_nil _⟩

/-! ## Dialogs -/

/-- No user is logged in behind the login dialog. -/
theorem AtWork.noUser (h : AtWork ds s) (hlogin : .login ∈ ds) :
    s.window.username = MainWindow.emptyText := by
  rcases h.login hlogin with huser | ⟨hended, -⟩
  · exact huser
  · rw [h.notEnded] at hended
    cases hended

theorem AtWork.opens (h : AtWork ds s) {d : WindowDialog}
    (hlogin : d = .login → s.window.username = MainWindow.emptyText ∧ ds = [])
    (hregister : d = .register → .login ∈ ds)
    (hasked : ∀ id, d = .question (CMainFrame.deleteQuestion id) →
      .login ∉ ds ∧ (AllFit s.sent → Owned s.world s.session.userId id)) :
    DesktopOk (d :: ds) s :=
  { h with
    login := fun hmem => by
      rcases List.mem_cons.mp hmem with rfl | hmem
      · exact .inl (hlogin rfl).1
      · exact .inl (h.noUser hmem)
    register := fun hmem => by
      rcases List.mem_cons.mp hmem with rfl | hmem
      · exact List.mem_cons_of_mem _ (hregister rfl)
      · exact List.mem_cons_of_mem _ (h.register hmem)
    asked := fun id hmem => by
      rcases List.mem_cons.mp hmem with rfl | hmem
      · exact List.not_mem_cons_of_ne_of_not_mem nofun (hasked id rfl).1
      · refine List.not_mem_cons_of_ne_of_not_mem (fun hd => ?_) (h.asked id hmem)
        rw [(hlogin hd.symm).2] at hmem
        cases hmem
    ended := fun hended => by
      rw [h.notEnded] at hended
      cases hended
    own := fun hfit => { h.own hfit with
      asked := fun hne id hmem => by
        rcases List.mem_cons.mp hmem with rfl | hmem
        · exact (hasked id rfl).2 hfit
        · exact (h.own hfit).asked hne id hmem } }

theorem DesktopOk.closes {d : WindowDialog} (h : DesktopOk (d :: ds) s)
    (hclosed : s.window.closed = false) (hd : d = .login → ds = []) :
    AtWork ds { s with dialogEnded := false } :=
  { h with
    login := fun hmem => by
      rcases h.login (List.mem_cons_of_mem _ hmem) with huser | ⟨-, hhead⟩
      · exact .inl huser
      · rw [hd (Option.some.inj hhead)] at hmem
        cases hmem
    register := fun hmem => by
      rcases List.mem_cons.mp
        (h.register (List.mem_cons_of_mem _ hmem)) with hlogin | hlogin
      · rw [hd hlogin.symm] at hmem
        cases hmem
      · exact hlogin
    asked := fun id hmem hlogin =>
      h.asked id (List.mem_cons_of_mem _ hmem) (List.mem_cons_of_mem _ hlogin)
    ended := fun hended => by cases hended
    own := fun hfit => { h.own hfit with
      asked := fun hne id hmem =>
        (h.own hfit).asked hne id (List.mem_cons_of_mem _ hmem) }
    closed := hclosed
    notEnded := rfl }

theorem DesktopOk.closes_box {d : WindowDialog} (h : DesktopOk (d :: ds) s)
    (hclosed : s.window.closed = false) (hd : d.isModal = false) : AtWork ds s := by
  have hnotEnded : s.dialogEnded = false := by
    rw [Bool.eq_false_iff]
    intro hended
    obtain ⟨d', hhead, hmodal⟩ := h.ended hended
    obtain rfl := Option.some.inj hhead
    rw [hd] at hmodal
    cases hmodal
  have hafter := h.closes hclosed fun hlogin => by
    rw [hlogin] at hd
    cases hd
  rw [← hnotEnded] at hafter
  exact hafter

theorem AtWork.ends (h : AtWork ds s) {d : WindowDialog} (hhead : ds.head? = some d)
    (hd : d.isModal = true) : DesktopOk ds { s with dialogEnded := true } :=
  { h with
    login := fun hlogin => .inl (h.noUser hlogin)
    ended := fun _ => ⟨d, hhead, hd⟩
    own := fun hfit => { h.own hfit with } }

theorem not_closed {d : WindowDialog} {r : ℕ} (h : d.closes r s) :
    s.window.closed = false :=
  (Bool.not_eq_true' _).mp ((Bool.and_eq_true _ _).mp h).1

theorem openDialog_ensures (h : AtWork ds s) {d : WindowDialog} (hd : d.isModal = false)
    (hasked : ∀ id, d = .question (CMainFrame.deleteQuestion id) →
      .login ∉ ds ∧ (AllFit s.sent → Owned s.world s.session.userId id)) :
    Ensures ds (CMainFrame.openDialog d) s fun _ s' => DesktopOk (d :: ds) s' ∧
    AtWork ds s' := by
  refine (wp_openDialog d).mpr ⟨h.opens (fun hlogin => ?_) (fun hregister => ?_) hasked,
    fun r s' hs' hcloses => ⟨hs', hs'.closes_box (not_closed hcloses) hd⟩⟩
  · rw [hlogin] at hd
    cases hd
  · rw [hregister] at hd
    cases hd

theorem messageBox_ensures (h : AtWork ds s) (text : Bytes) :
    Ensures ds (CMainFrame.messageBox text) s fun _ s' => AtWork ds s' :=
  wp_seq (openDialog_ensures (d := .messageBox text) h rfl nofun) fun _ _ h => h.2

/-- After the question whether to delete an alert, the alert is one of the user who is
logged in then. -/
theorem question_ensures (h : AtWork ds s) {id : Bytes} (hlogin : .login ∉ ds)
    (howned : AllFit s.sent → Owned s.world s.session.userId id) :
    Ensures ds (CMainFrame.question (CMainFrame.deleteQuestion id)) s fun _ s' =>
      AtWork ds s' ∧ (AllFit s'.sent → s'.window.username ≠ MainWindow.emptyText →
        Owned s'.world s'.session.userId id) := by
  have hasked : ∀ id', WindowDialog.question (CMainFrame.deleteQuestion id) =
      .question (CMainFrame.deleteQuestion id') →
        .login ∉ ds ∧ (AllFit s.sent → Owned s.world s.session.userId id') := by
    intro id' heq
    obtain rfl : id = id' := by
      simpa [CMainFrame.deleteQuestion] using WindowDialog.question.inj heq
    exact ⟨hlogin, howned⟩
  refine wp_seq (openDialog_ensures h rfl hasked) fun _ s' hs' =>
    ⟨hs'.2, fun hfit hne => ?_⟩
  exact (hs'.1.own hfit).asked hne id List.mem_cons_self

theorem doModal_ensures (h : AtWork ds s) {d : WindowDialog}
    (hlogin : d = .login → s.window.username = MainWindow.emptyText ∧ ds = [])
    (hregister : d = .register → .login ∈ ds) (hmodal : d.isModal) :
    Ensures ds (CMainFrame.doModal d) s fun _ s' => AtWork ds s' := by
  have hreset : AtWork ds { s with dialogEnded := false } := by
    have hnotEnded := h.notEnded
    rw [← hnotEnded]
    exact h
  have hasked : ∀ id, d = .question (CMainFrame.deleteQuestion id) →
      .login ∉ ds ∧ (AllFit s.sent → Owned s.world s.session.userId id) := by
    rintro id rfl
    cases hmodal
  have hdialog : Ensures ds (CMainFrame.openDialog d) { s with dialogEnded := false }
      fun _ s' => AtWork ds { s' with dialogEnded := false } :=
    (wp_openDialog d).mpr ⟨hreset.opens hlogin hregister hasked,
      fun r s' hs' hcloses => hs'.closes (not_closed hcloses) fun hd => (hlogin hd).2⟩
  refine wp_perform_bind (.setDialogEnded false) (wp_seq hdialog fun result s' h' => ?_)
  exact h'

end

end CloudAlert
