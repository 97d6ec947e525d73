import CloudAlert.Client.WindowInvariant

/-!
# Runs of the window

What the window sends and shows in every run, with dialogs nested in any way, replies late
or lost and other threads at work on the server. A command other than LOGIN and REGISTER
is sent while a user is logged in and gives the name of that user, and a DELETE or a
MODIFY is for an alert of the user of the session that gets it (`window_commands`). The
buttons, the labels and the editor agree with the state of the window whenever no handler
is at work (`window_consistent`).

A user who is logged out while no dialog is open cannot log in again
(`loggedOut_is_final`): the login dialog is opened at the start and by the Logout button,
which is disabled then.
-/

namespace CloudAlert

open Program MessageLoop

variable {ds : List WindowDialog} {s s' : Desktop}

/-! ## Operations of the window -/

theorem MayShow.setStatus {w : MainWindow} (hw : MayShow s w) (text : Bytes) :
    MayShow s (w.setStatus text) := { hw with }

theorem MayShow.showToast {w : MainWindow} (hw : MayShow s w) (text : Bytes) :
    MayShow s (w.showToast text) := { hw with toast := fun _ => rfl }

theorem MayShow.enterAddMode {w : MainWindow} (hw : MayShow s w) :
    MayShow s w.enterAddMode :=
  { hw with
    buttons := rfl
    editorView := rfl
    editMode := fun _ => rfl
    toast := fun htoast => absurd rfl htoast
    ownEdit := fun _ hedit => absurd hedit Bool.false_ne_true }

theorem MayShow.withList {w : MainWindow} {rows : List AlertRow} (hw : MayShow s w)
    (hne : w.username ≠ MainWindow.emptyText)
    (hrows : AllFit s.sent → ∀ row ∈ rows, Owned s.world s.session.userId row.id.val) :
    MayShow s { w with list := rows } :=
  { hw with
    list := fun huser => absurd huser hne
    ownList := hrows }

theorem Owned.trim_editText {w : World} {userId : ℤ} {t : Text}
    (h : Owned w userId t.val) : Owned w userId (trim (editText t)).val := by
  obtain ⟨r, hr, howner, hid⟩ := h
  refine ⟨r, hr, howner, ?_⟩
  rw [CloudAlert.trim_editText (hid ▸ (isToken_fmtInt r.id).2), hid]

/-- A row is selected, of those that the list has while a user is logged in. -/
theorem MayShow.enterEditMode {w : MainWindow} (hw : MayShow s w) (item : ℕ) :
    MayShow s (w.enterEditMode item) := by
  unfold MainWindow.enterEditMode
  split
  · exact { hw with toast := fun htoast => absurd rfl htoast }
  · rename_i row hrow
    have hmem : row ∈ w.list := List.mem_of_getElem? hrow
    have hid : (CloudAlert.enterEditMode row).id = editText row.id := by
      unfold CloudAlert.enterEditMode
      split <;> rfl
    exact { hw with
      buttons := rfl
      editorView := rfl
      editMode := fun huser => by
        rw [hw.list huser] at hmem
        cases hmem
      toast := fun htoast => absurd rfl htoast
      ownEdit := fun hfit _ => by
        change Owned _ _ (trim (CloudAlert.enterEditMode row).id).val
        rw [hid]
        exact (hw.ownList hfit row hmem).trim_editText }

theorem DesktopOk.frame (h : DesktopOk ds s) (posted : List Posted) (sessionOpen : Bool)
    (sockets : ℕ) (network : ℕ → Outcome) :
    DesktopOk ds { s with
      posted := posted, sessionOpen := sessionOpen, sockets :=
        sockets, network := network } :=
  { h with own := fun hfit => { h.own hfit with } }

theorem AtWork.change (h : AtWork ds s) {g : MainWindow → MainWindow}
    (hg : MayShow s (g s.window)) :
    Ensures ds (CMainFrame.change g) s fun _ s' => AtWork ds s' := h.show hg

/-! ## Commands -/

theorem loggedIn_iff (w : MainWindow) :
    w.loggedIn = true ↔ w.connected = true ∧ w.username ≠ MainWindow.emptyText := by
  simp [MainWindow.loggedIn]

theorem ensureLoggedIn_ensures (h : AtWork ds s) :
    Ensures ds CMainFrame.ensureLoggedIn s fun loggedIn s' =>
      AtWork ds s' ∧ (loggedIn = true → s' = s ∧ s.window.loggedIn = true) ∧
        (s.window.loggedIn = true → loggedIn = true) := by
  refine wp_look_bind ?_
  split
  · rename_i hin
    exact ⟨h, fun _ => ⟨rfl, hin⟩, fun _ => rfl⟩
  · rename_i hout
    exact wp_seq (messageBox_ensures h _) fun _ s' h' =>
      ⟨h', nofun, fun hin => absurd hin hout⟩

theorem MaySend.ofUser {c : ClientCommand} (haccount : c.forAccount = false)
    (hin : s.window.loggedIn = true)
    (hname : ∀ user, c.name = some user → user = s.window.username)
    (halert : AllFit s.sent → ∀ id, c.alertId = some id →
      Owned s.world s.session.userId id) :
    MaySend s c where
  account := iff_of_false (by rw [haccount]; exact Bool.false_ne_true)
    ((loggedIn_iff _).mp hin).2
  name := hname
  alert := halert

theorem Replied.sameLogin {lines : List Bytes} (h : Replied ds s lines s') :
    s'.window.loggedIn = s.window.loggedIn := congrArg MainWindow.loggedIn h.sameWindow

theorem refreshEmail_ensures (h : AtWork ds s) :
    Ensures ds CMainFrame.refreshEmail s fun _ s' =>
      AtWork ds s' ∧ s'.window.loggedIn = s.window.loggedIn := by
  refine wp_look_bind ?_
  split
  · exact ⟨h, rfl⟩
  · rename_i hin
    rw [Bool.not_eq_true, Bool.not_eq_false'] at hin
    have hsend : MaySend s (.getEmail s.window.username) :=
      .ofUser rfl hin (fun _ hname => (Option.some.inj hname).symm)
        (fun _ _ hid => by cases hid)
    refine wp_seq (sendCommand_ensures h hsend) fun reply s' h' => ?_
    exact ⟨h'.toAtWork.show { h'.toAtWork.mayShow with buttons := rfl },
      h'.sameLogin⟩

theorem PriceView.show_ids (view : PriceView) (line : Bytes) :
    (view.show line).rows.map AlertRow.id = view.rows.map AlertRow.id := by
  unfold PriceView.show
  split
  · rfl
  · split
    · rw [List.map_map]
      refine List.map_congr_left fun row _ => ?_
      dsimp only [Function.comp]
      split <;> rfl
    · rfl

theorem currentPrices_ids (rows : List AlertRow) (reply : Option (List Bytes)) :
    (currentPrices rows reply).1.map AlertRow.id = rows.map AlertRow.id := by
  have hfold : ∀ (lines : List Bytes) (view : PriceView),
      (lines.foldl PriceView.show view).rows.map AlertRow.id =
      view.rows.map AlertRow.id := by
    intro lines
    induction lines with
    | nil => exact fun _ => rfl
    | cons line lines ih => exact fun view => (ih _).trans (view.show_ids line)
  unfold currentPrices
  split
  · rfl
  · split
    · rfl
    · exact hfold _ _

theorem refreshCurrentPrices_ensures (h : AtWork ds s) :
    Ensures ds CMainFrame.refreshCurrentPrices s fun _ s' =>
      AtWork ds s' ∧ s'.window.loggedIn = s.window.loggedIn := by
  refine wp_look_bind ?_
  split
  · exact ⟨h, rfl⟩
  · rename_i hin
    rw [Bool.or_eq_true, not_or, Bool.not_eq_true, Bool.not_eq_false'] at hin
    have hsend : MaySend s (.getPrices (listedContracts s.window.list)) :=
      .ofUser rfl hin.1 (fun _ hname => by cases hname) (fun _ _ hid => by cases hid)
    refine wp_seq (sendCommand_ensures h hsend) fun reply s' h' => ?_
    have hids := currentPrices_ids s.window.list (if reply.1 then some reply.2 else none)
    have hrows : AllFit s'.sent →
        ∀ row ∈ (currentPrices s.window.list (if reply.1 then some reply.2 else none)).1,
          Owned s'.world s'.session.userId row.id.val := by
      intro hfit row hrow
      have hmem : row.id ∈ s.window.list.map AlertRow.id :=
        hids ▸ List.mem_map_of_mem hrow
      obtain ⟨old, hold, hid⟩ := List.mem_map.mp hmem
      rw [← hid]
      exact (h'.own hfit).list old (h'.sameWindow.symm ▸ hold)
    have hne : s'.window.username ≠ MainWindow.emptyText := by
      rw [h'.sameWindow]
      exact ((loggedIn_iff _).mp hin.1).2
    exact ⟨h'.toAtWork.show ((h'.toAtWork.mayShow.withList hne hrows).setStatus _),
      h'.sameLogin⟩

theorem listedRow_id {choice : ListChoice} {line : Bytes} {row : AlertRow}
    (h : listedRow choice line = some row) :
    isAlert line = true ∧ ∃ id, (clientSplit line)[1]? = some id ∧ row.id = cstr id := by
  unfold listedRow at h
  split at h
  · cases h
  · rename_i hline
    split at h
    · cases h
    · unfold addAlertLine at h
      split at h
      · rename_i hsplit
        obtain rfl := Option.some.inj h
        exact ⟨not_not.mp hline, _, by rw [hsplit]; rfl, rfl⟩
      · cases h

theorem refreshAlerts_owned {w : World} {userId : ℤ} {choice : ListChoice}
    {lines : List Bytes} (h : ∀ line ∈ lines, ListsOwn w userId line) :
    ∀ row ∈ refreshAlerts choice lines, Owned w userId row.id.val := by
  intro row hrow
  obtain ⟨line, hline, hlisted⟩ := List.mem_filterMap.mp hrow
  obtain ⟨halert, id, hid, hrowId⟩ := listedRow_id hlisted
  obtain ⟨id', hid', howned⟩ := h line hline halert
  obtain rfl := Option.some.inj (hid.symm.trans hid')
  rw [hrowId]
  obtain ⟨r, hr, howner, hprinted⟩ := howned
  exact ⟨r, hr, howner, by rw [← hprinted, cstr_of_plain (plain_fmtInt _)]⟩

theorem refreshAlerts_ensures (h : AtWork ds s) :
    Ensures ds CMainFrame.refreshAlerts s fun _ s' =>
      AtWork ds s' ∧ (s.window.loggedIn = true → s'.window.loggedIn = true) := by
  refine wp_seq (ensureLoggedIn_ensures h) fun loggedIn s' hs' => ?_
  obtain ⟨h, hin, hout⟩ := hs'
  split
  · rename_i hno
    rw [Bool.not_eq_true'] at hno
    exact ⟨h, fun hloggedIn =>
      absurd (hout hloggedIn) (by rw [hno]; exact Bool.false_ne_true)⟩
  · rename_i hyes
    rw [Bool.not_eq_true, Bool.not_eq_false'] at hyes
    obtain ⟨rfl, hin⟩ := hin hyes
    have htitled : AtWork ds { s' with window := { s'.window with
        listTitle := if s'.window.showDeletedOnly then ascii "Deleted Alerts"
          else ascii "Alert List" } } := h.show { h.mayShow with }
    refine wp_change_bind (wp_look_bind ?_)
    have hsend : MaySend { s' with window := { s'.window with
        listTitle := if s'.window.showDeletedOnly then ascii "Deleted Alerts"
          else ascii "Alert List" } } (.query s'.window.username
            s'.window.listChoice.status) :=
      .ofUser rfl hin (fun _ hname => (Option.some.inj hname).symm)
        (fun _ _ hid => by cases hid)
    refine wp_seq (sendCommand_ensures htitled hsend) fun reply s' h' => ?_
    have hstill : s'.window.loggedIn = true := by
      rw [h'.sameWindow]
      exact hin
    split
    · exact ⟨h'.toAtWork.show (h'.toAtWork.mayShow.setStatus _), fun _ => hstill⟩
    · have hne := ((loggedIn_iff _).mp hstill).2
      have hlisted : MayShow s' { s'.window with
          list := refreshAlerts s'.window.listChoice reply.2 } :=
        h'.toAtWork.mayShow.withList hne fun hfit => refreshAlerts_owned fun line hline =>
          (h'.own hfit).heard (h'.windowOk.connected hne) line (h'.lines line hline)
      have hpriced := refreshCurrentPrices_ensures (h'.toAtWork.show hlisted)
      refine wp_change_bind (wp_seq hpriced fun _ s' hs' => ?_)
      obtain ⟨h', hsame⟩ := hs'
      exact ⟨h'.show (h'.mayShow.setStatus _), fun _ => hsame.trans hstill⟩

theorem showCommandError_ensures (h : AtWork ds s) (lines : List Bytes)
    (fallback : String) :
    Ensures ds (CMainFrame.showCommandError lines fallback) s fun _ s' => AtWork ds s' :=
  wp_change_bind (messageBox_ensures (h.show (h.mayShow.setStatus _)) _)

theorem runSimpleCommand_ensures (h : AtWork ds s) {c : ClientCommand}
    (successText : String) (hc : s.window.loggedIn = true → MaySend s c) :
    Ensures ds (CMainFrame.runSimpleCommand c successText) s fun _ s' =>
    AtWork ds s' := by
  refine wp_seq (ensureLoggedIn_ensures h) fun loggedIn s' hs' => ?_
  obtain ⟨h, hin, -⟩ := hs'
  split
  · exact h
  · rename_i hyes
    rw [Bool.not_eq_true, Bool.not_eq_false'] at hyes
    obtain ⟨rfl, hin⟩ := hin hyes
    refine wp_seq (sendCommand_ensures h (hc hin)) fun reply s' h' => ?_
    split
    · exact h'.toAtWork.change ((h'.toAtWork.mayShow.setStatus _).showToast _)
    · exact showCommandError_ensures h'.toAtWork _ _

/-! ## The connection -/

theorem AtWork.offline (h : AtWork ds s) (hdown : s.window.connected = false) :
    s.window.username = MainWindow.emptyText := by
  by_contra hne
  rw [h.windowOk.connected hne] at hdown
  cases hdown

theorem AtWork.connects (h : AtWork ds s) (hdown : s.window.connected = false) :
    AtWork ds (execWindow .connect s).2 ∧ (execWindow .connect s).2.window = s.window ∧
      ((execWindow .connect s).1 = true → (execWindow .connect s).2.heard = []) := by
  have hoffline : ∀ {s' : Desktop}, s'.window = s.window →
      s'.dialogEnded = s.dialogEnded →
      s'.sent = s.sent → AtWork ds s' := by
    intro s' hwindow hended hsent
    refine h.guest (hwindow ▸ h.windowOk) (hwindow ▸ h.closed) (hwindow ▸ h.offline hdown)
      (fun _ hconn => ?_) (hended.trans h.notEnded) hsent
    rw [hwindow, hdown] at hconn
    cases hconn
  unfold execWindow
  dsimp only
  split
  · exact ⟨hoffline rfl rfl rfl, rfl, fun _ => rfl⟩
  · exact ⟨hoffline rfl rfl rfl, rfl, nofun⟩

/-- What `EnsureConnected` ensures; it makes a new connection only while no user is logged
in. -/
theorem ensureConnected_ensures (h : AtWork ds s) :
    Ensures ds CMainFrame.ensureConnected s fun connected s' =>
      AtWork ds s' ∧ s'.window.username = s.window.username ∧
        (connected = true → s'.window.connected = true) := by
  refine wp_look_bind ?_
  split
  · rename_i hconn
    exact ⟨h, rfl, fun _ => hconn⟩
  · rename_i hdown
    rw [Bool.not_eq_true] at hdown
    have hstatus := h.show (h.mayShow.setStatus (ascii "Connecting to server..."))
    refine wp_change_bind (wp_perform_bind .connect ?_)
    obtain ⟨h', hwindow, hheard⟩ := hstatus.connects hdown
    generalize execWindow .connect _ = out at h' hwindow hheard ⊢
    have huser : out.2.window.username = s.window.username := by
      rw [hwindow]
      rfl
    split
    · rename_i hok
      have hnew : AtWork ds { out.2 with
          window := { out.2.window with
              connected := true, closing := false }.updateButtonState } :=
        h'.guest
          { h'.windowOk with
            buttons := rfl
            connected := fun _ => rfl }
          h'.closed (huser.trans (h.offline hdown))
          (fun _ _ => by
            rw [hheard hok]
            exact List.forall_mem_nil _)
          h'.notEnded rfl
      exact ⟨hnew, huser, fun _ => rfl⟩
    · exact ⟨h'.show (h'.mayShow.setStatus _), huser, nofun⟩

theorem stopConnection_wp (inv : List WindowDialog → Desktop → Prop) (s : Desktop) :
    windowLoop.wp inv ds (fun _ s' => s' =
      { s with
        window := { s.window with
            closing := true, recvThread := false, connected := false }
        sessionOpen := if s.window.connected then false else s.sessionOpen })
      CMainFrame.stopConnection s := by
  unfold CMainFrame.stopConnection
  refine wp_bind.mpr (wp_bind.mpr ?_)
  change windowLoop.wp _ _ _ (if s.window.connected = true then _ else _) _
  split <;> rfl

/-- What `StartReceiver` ensures while the window is connected. -/
theorem startReceiver_ensures (hconn : s.window.connected = true) :
    Ensures ds CMainFrame.startReceiver s fun _ s' => ∃ closing recvThread network, s' =
      { s with
        window := { s.window with closing := closing, recvThread := recvThread }
        network := network } := by
  refine wp_look_bind ?_
  split
  · exact ⟨_, _, _, rfl⟩
  · rw [hconn]
    exact ⟨_, _, _, rfl⟩

/-! ## The account -/

/-- `LoginUser` ensures that the login dialog can be closed, or leaves things as they
were. -/
theorem loginUser_ensures (h : AtWork ds s) (hhead : ds.head? = some .login)
    (user password : Field) :
    Ensures ds (CMainFrame.loginUser user password) s fun error s' =>
      match error with
      | none => DesktopOk ds { s' with dialogEnded := true }
      | some _ => AtWork ds s' := by
  have hlogin : WindowDialog.login ∈ ds := List.mem_of_mem_head? hhead
  refine wp_seq (ensureConnected_ensures h) fun connected s' hs' => ?_
  obtain ⟨h, -, hconn⟩ := hs'
  split
  · exact h
  · rename_i hyes
    rw [Bool.not_eq_true, Bool.not_eq_false'] at hyes
    have hsend : MaySend s' (.login user password) :=
      { account := iff_of_true rfl (h.noUser hlogin)
        name := fun _ hname => by cases hname
        alert := fun _ _ hid => by cases hid }
    refine wp_seq (sendCommand_ensures h hsend) fun reply s'' h' => ?_
    have hconn : s''.window.connected = true := h'.sameWindow ▸ hconn hyes
    replace h' := h'.toAtWork
    have huser := h'.noUser hlogin
    split
    · refine wp_change_bind
        (wp_seq (startReceiver_ensures hconn) fun started s' hs' => ?_)
      obtain ⟨closing, recvThread, network, rfl⟩ := hs'
      split
      · exact
          { window := fun _ =>
              { h'.windowOk with
                buttons := rfl
                connected := fun _ => hconn
                list := fun _ => h'.windowOk.list huser
                editMode := fun _ => h'.windowOk.editMode huser
                showDeletedOnly := fun _ => rfl
                priceTimer := fun _ => h'.windowOk.priceTimer huser
                toast := fun _ => rfl }
            login := fun _ => .inr ⟨rfl, hhead⟩
            register := h'.register
            asked := h'.asked
            ended := fun _ => ⟨.login, hhead, rfl⟩
            sent := h'.sent
            own := fun hfit =>
              { h'.own hfit with
                asked := fun _ id hid => absurd hlogin (h'.asked id hid)
                fresh := fun _ _ => (h'.own hfit).fresh hconn huser } }
      · refine h'.guest
          { h'.windowOk with
            buttons := rfl
            connected := fun hne => absurd rfl hne
            list := fun _ => h'.windowOk.list huser
            editMode := fun _ => h'.windowOk.editMode huser
            showDeletedOnly := fun _ => rfl
            priceTimer := fun _ => h'.windowOk.priceTimer huser }
          h'.closed rfl (fun hfit _ => (h'.own hfit).fresh hconn huser) h'.notEnded rfl
    · exact h'

theorem registerUser_ensures (h : AtWork ds s) (hregister : .register ∈ ds)
    (user password email : Field) :
    Ensures ds (CMainFrame.registerUser user password email) s fun _ s' =>
    AtWork ds s' := by
  refine wp_seq (ensureConnected_ensures h) fun connected s' hs' => ?_
  obtain ⟨h, -, -⟩ := hs'
  split
  · exact h
  · have hsend : MaySend s' (.register user password email) :=
      { account := iff_of_true rfl (h.noUser (h.register hregister))
        name := fun _ hname => by cases hname
        alert := fun _ _ hid => by cases hid }
    refine wp_seq (sendCommand_ensures h hsend) fun reply s' h' => ?_
    split
    · exact h'.toAtWork.show (h'.toAtWork.mayShow.setStatus _)
    · exact h'.toAtWork

theorem changeEmail_ensures (h : AtWork ds s) (password email : Field) :
    Ensures ds (CMainFrame.changeEmail password email) s fun _ s' => AtWork ds s' := by
  refine wp_seq (ensureConnected_ensures h) fun connected s' hs' => ?_
  obtain ⟨h, -, hconn⟩ := hs'
  refine wp_look_bind ?_
  split
  · exact h
  · rename_i hboth
    simp only [Bool.or_eq_true, Bool.not_eq_true', decide_eq_true_eq, not_or,
      Bool.not_eq_false] at hboth
    have hsend : MaySend s' (.setEmail s'.window.username password email) :=
      .ofUser rfl ((loggedIn_iff _).mpr ⟨hconn hboth.1, hboth.2⟩)
        (fun _ hname => (Option.some.inj hname).symm) (fun _ _ hid => by cases hid)
    refine wp_seq (sendCommand_ensures h hsend) fun reply s' h' => ?_
    split
    · exact h'.toAtWork.show { h'.toAtWork.mayShow with
        buttons := rfl
        toast := fun _ => rfl }
    · exact h'.toAtWork

/-! ## Handlers -/

/-- A handler ends with the invariant. -/
abbrev KeepsOk (ds : List WindowDialog) (p : WindowCode Unit) (s : Desktop) : Prop :=
  Ensures ds p s fun _ s' => DesktopOk ds s'

theorem keeps_of {p : WindowCode Unit} (h : Ensures ds p s fun _ s' => AtWork ds s') :
    KeepsOk ds p s :=
  wp_mono h fun _ _ h => h.toDesktopOk

theorem AtWork.changes (h : AtWork ds s) {g : MainWindow → MainWindow}
    (hg : MayShow s (g s.window)) : KeepsOk ds (CMainFrame.change g) s :=
  keeps_of (h.change hg)

theorem onSetEmail_keeps (h : AtWork ds s) : KeepsOk ds CMainFrame.onSetEmail s := by
  refine keeps_of (wp_seq (ensureLoggedIn_ensures h) fun loggedIn s' hs' => ?_)
  obtain ⟨h, -⟩ := hs'
  split
  · exact h
  · refine wp_change_bind ?_
    have hopens := h.show (w := { s'.window with
      emailStatus := ascii "Enter your password to confirm this change." }) {
        h.mayShow with }
    have hdialog := doModal_ensures (d := .changeEmail) hopens nofun nofun rfl
    refine wp_seq hdialog fun changed s' h' => ?_
    split
    · exact wp_mono (refreshAlerts_ensures h') fun _ _ hs' => hs'.1
    · exact h'

theorem AtWork.posts (h : AtWork ds s) (m : Posted) : KeepsOk ds (CMainFrame.post m) s :=
  h.toDesktopOk.frame _ _ _ _

theorem loginDialog_keeps (h : AtWork [] s)
    (huser : s.window.username = MainWindow.emptyText)
    {no : WindowCode Unit} (hno : ∀ s', AtWork [] s' → KeepsOk [] no s') :
    KeepsOk [] (do
      let loggedIn ← CMainFrame.doModal .login
      if loggedIn then
        CMainFrame.change fun w => { w with visible := true }
        CMainFrame.post .postLogin
      else no) s := by
  have hdialog := doModal_ensures (d := .login) h (fun _ => ⟨huser, rfl⟩) nofun rfl
  refine wp_seq hdialog fun loggedIn s' h' => ?_
  split
  · have hshown := h'.show (w := { s'.window with visible := true }) { h'.mayShow with }
    exact wp_change_bind (hshown.posts _)
  · exact hno s' h'

theorem onLogout_keeps (h : AtWork [] s) : KeepsOk [] CMainFrame.onLogout s := by
  refine wp_change_bind (wp_seq (stopConnection_wp _ _) fun _ s' hs' => ?_)
  subst hs'
  refine wp_change_bind
    (wp_change_bind (loginDialog_keeps ?_ rfl fun s' h' => h'.posts _))
  exact h.guest
    { buttons := rfl
      editorView := rfl
      connected := fun hne => absurd rfl hne
      list := fun _ => rfl
      editMode := fun _ => rfl
      showDeletedOnly := fun _ => rfl
      priceTimer := fun _ => rfl
      toast := fun htoast => absurd rfl htoast }
    h.closed rfl (fun _ hconn => by cases hconn) h.notEnded rfl

theorem onAddPrice_command {username : Field} {form : Editor} {c : ClientCommand}
    (h : onAddPrice username form = .ok c) :
    c.forAccount = false ∧ c.name = some username ∧ c.alertId = none := by
  unfold onAddPrice at h
  obtain ⟨-, -, h⟩ := except_bind_ok h
  split at h
  · obtain ⟨-, -, h⟩ := except_bind_ok h
    cases h
    exact ⟨rfl, rfl, rfl⟩
  · obtain ⟨-, -, h⟩ := except_bind_ok h
    cases h
    exact ⟨rfl, rfl, rfl⟩

theorem onModifyPrice_command {form : EditForm} {c : ClientCommand}
    (h : onModifyPrice form = .ok c) :
    c.forAccount = false ∧ c.name = none ∧ c.alertId = some (trim form.id).val := by
  unfold onModifyPrice at h
  obtain ⟨-, -, h⟩ := except_bind_ok h
  obtain ⟨-, -, h⟩ := except_bind_ok h
  split at h
  · obtain ⟨-, -, h⟩ := except_bind_ok h
    cases h
    exact ⟨rfl, rfl, rfl⟩
  · obtain ⟨-, -, h⟩ := except_bind_ok h
    cases h
    exact ⟨rfl, rfl, rfl⟩

theorem commandThenRefresh_keeps (h : AtWork ds s) {c : ClientCommand}
    (successText : String) (hc : s.window.loggedIn = true → MaySend s c) :
    KeepsOk ds (do
      CMainFrame.runSimpleCommand c successText
      CMainFrame.refreshAlerts
      CMainFrame.change MainWindow.enterAddMode) s := by
  refine keeps_of (wp_seq (runSimpleCommand_ensures h _ hc) fun _ s' h' => ?_)
  exact wp_seq (refreshAlerts_ensures h') fun _ s' hs' =>
    hs'.1.change hs'.1.mayShow.enterAddMode

theorem onAddPrice_keeps (h : AtWork ds s) : KeepsOk ds CMainFrame.onAddPrice s := by
  refine wp_look_bind ?_
  cases hcommand : onAddPrice s.window.username s.window.editor with
  | error text => exact keeps_of (messageBox_ensures h _)
  | ok c =>
      obtain ⟨haccount, hname, hid⟩ := onAddPrice_command hcommand
      refine commandThenRefresh_keeps h _ fun hin =>
        .ofUser haccount hin (fun user huser => ?_)
        fun _ id hid' => ?_
      · exact (Option.some.inj (hname.symm.trans huser)).symm
      · rw [hid] at hid'
        cases hid'

theorem onModifyPrice_keeps (h : AtWork ds s) (hedit : s.window.editMode = true) :
    KeepsOk ds CMainFrame.onModifyPrice s := by
  refine wp_look_bind ?_
  cases hcommand :
    onModifyPrice ⟨s.window.idEdit, s.window.editAlertType, s.window.editor⟩ with
  | error text => exact keeps_of (messageBox_ensures h _)
  | ok c =>
      obtain ⟨haccount, hname, hid⟩ := onModifyPrice_command hcommand
      refine commandThenRefresh_keeps h _ fun hin =>
        .ofUser haccount hin (fun user huser => ?_)
        fun hfit id hid' => ?_
      · rw [hname] at huser
        cases huser
      · obtain rfl := Option.some.inj (hid.symm.trans hid')
        exact (h.own hfit).edit hedit

theorem onDeleteAlert_keeps (h : AtWork [] s) (hedit : s.window.editMode = true) :
    KeepsOk [] CMainFrame.onDeleteAlert s := by
  refine wp_look_bind ?_
  dsimp only
  split
  · exact keeps_of (messageBox_ensures h _)
  · refine wp_seq (question_ensures h List.not_mem_nil fun hfit =>
      (h.own hfit).edit hedit)
      fun yes s' hs' => ?_
    obtain ⟨h', howned⟩ := hs'
    split
    · refine commandThenRefresh_keeps h' _ fun hin => .ofUser rfl hin
        (fun _ hname => by cases hname) fun hfit id hid => ?_
      obtain rfl := Option.some.inj hid
      exact howned hfit ((loggedIn_iff _).mp hin).2
    · exact h'.toDesktopOk

theorem onRefresh_keeps (h : AtWork ds s) : KeepsOk ds CMainFrame.onRefresh s :=
  wp_seq (refreshEmail_ensures h) fun _ _ hs' =>
    wp_mono (refreshAlerts_ensures hs'.1) fun _ _ hs' => hs'.1.toDesktopOk

theorem onViewDeleted_keeps (h : AtWork ds s) :
    KeepsOk ds CMainFrame.onViewDeleted s := by
  refine wp_look_bind ?_
  split
  · exact h.toDesktopOk
  · rename_i hin
    rw [Bool.not_eq_true, Bool.not_eq_false'] at hin
    have hne := ((loggedIn_iff _).mp hin).2
    have hshown := h.show (w := { s.window with
        showDeletedOnly := !s.window.showDeletedOnly, statusSel := 0 }.updateButtonState)
      { h.mayShow with
        buttons := rfl
        showDeletedOnly := fun huser => absurd huser hne }
    refine wp_change_bind
      (keeps_of (wp_seq (refreshAlerts_ensures hshown) fun _ s' hs' => ?_))
    exact hs'.1.change hs'.1.mayShow.enterAddMode

theorem onStatusFilterChanged_keeps (h : AtWork ds s) :
    KeepsOk ds CMainFrame.onStatusFilterChanged s := by
  refine wp_look_bind ?_
  split
  · exact h.toDesktopOk
  · have hshown :=
      h.show (w := { s.window with showDeletedOnly := false }.updateButtonState)
      { h.mayShow with
        buttons := rfl
        showDeletedOnly := fun _ => rfl }
    exact wp_change_bind (wp_mono (refreshAlerts_ensures hshown) fun _ _ hs' =>
      hs'.1.toDesktopOk)

theorem onPickContract_keeps (h : AtWork ds s) :
    KeepsOk ds CMainFrame.onPickContract s := by
  refine wp_seq (openDialog_ensures (d := .contractMenu) h rfl nofun) fun cmd s' hs' => ?_
  obtain ⟨-, h'⟩ := hs'
  split
  · split
    · rename_i code _
      have hpicked : MayShow s' { s'.window with
          editor := { s'.window.editor with contract := code } } := { h'.mayShow with }
      exact (h'.show (hpicked.showToast _)).toDesktopOk
    · exact h'.toDesktopOk
  · exact h'.toDesktopOk

theorem onTriggered_keeps (h : AtWork ds s) (line : Text) :
    KeepsOk ds (CMainFrame.onTriggered line) s := by
  have hshown := h.show ((h.mayShow.setStatus line).showToast
    [0xD4, 0xA4, 0xBE, 0xAF, 0xD2, 0xD1, 0xB4, 0xA5, 0xB7, 0xA2])
  refine wp_change_bind (wp_seq (messageBox_ensures hshown _) fun _ s' h' => ?_)
  exact wp_mono (refreshAlerts_ensures h') fun _ _ hs' => hs'.1.toDesktopOk

theorem onPostLogin_keeps (h : AtWork ds s) : KeepsOk ds CMainFrame.onPostLogin s := by
  refine wp_look_bind ?_
  split
  · exact h.toDesktopOk
  · rename_i hin
    rw [Bool.not_eq_true, Bool.not_eq_false'] at hin
    have hstatus := h.show (h.mayShow.setStatus (ascii "Loading account data..."))
    refine wp_change_bind (wp_seq (refreshEmail_ensures hstatus) fun _ s' hs' => ?_)
    obtain ⟨h', hsame⟩ := hs'
    refine wp_seq (refreshAlerts_ensures h') fun _ s' hs' => ?_
    obtain ⟨h', hstill⟩ := hs'
    have hne := ((loggedIn_iff _).mp (hstill (hsame.trans hin))).2
    have hshown := h'.show (w := { s'.window with priceTimer := true }.updateButtonState)
      { h'.mayShow with
        buttons := rfl
        priceTimer := fun huser => absurd huser hne }
    exact hshown.toDesktopOk

theorem AtWork.clears (h : AtWork ds s) {g : MainWindow → MainWindow}
    (hw : MainWindowOk (g s.window))
    (hclosed : (g s.window).closed = false)
    (huser : (g s.window).username = MainWindow.emptyText)
    (hdown : (g s.window).connected = false) : KeepsOk ds (CMainFrame.change g) s := by
  have hcleared : AtWork ds { s with window := g s.window } :=
    h.guest hw hclosed huser
      (fun _ hconn => by rw [hdown] at hconn; cases hconn) h.notEnded rfl
  exact hcleared.toDesktopOk

theorem onDisconnected_keeps (h : AtWork ds s) :
    KeepsOk ds CMainFrame.onDisconnected s := by
  refine wp_look_bind ?_
  split
  · exact h.toDesktopOk
  · exact h.clears
      { buttons := rfl
        editorView := rfl
        connected := fun hne => absurd rfl hne
        list := fun _ => rfl
        editMode := fun _ => rfl
        showDeletedOnly := fun _ => rfl
        priceTimer := fun _ => rfl
        toast := fun htoast => absurd rfl htoast }
      h.closed rfl rfl

theorem onClose_keeps (h : AtWork ds s) : KeepsOk ds CMainFrame.onClose s := by
  refine wp_change_bind (wp_seq (stopConnection_wp _ _) fun _ s' hs' => ?_)
  subst hs'
  exact
    { h.toDesktopOk with
      window := fun hopen => by cases hopen
      own := fun hfit =>
        { h.own hfit with
          heard := fun hconn => by cases hconn
          fresh := fun hconn => by cases hconn } }

theorem loginDlgOnLogin_keeps (h : AtWork ds s) (hhead : ds.head? = some .login)
    (user password : Field) :
    KeepsOk ds (CMainFrame.loginDlgOnLogin user password) s := by
  unfold CMainFrame.loginDlgOnLogin
  split
  · exact h.changes { h.mayShow with }
  · refine wp_seq (loginUser_ensures h hhead _ _) fun error s' hs' => ?_
    cases error with
    | none => exact hs'
    | some text => exact AtWork.changes hs' { AtWork.mayShow hs' with }

theorem loginDlgOnRegister_keeps (h : AtWork ds s) (hhead : ds.head? = some .login) :
    KeepsOk ds CMainFrame.loginDlgOnRegister s := by
  have hshown := h.show (w := { s.window with
    registerStatus := ascii "Email will be bound to this account." }) { h.mayShow with }
  have hdialog := doModal_ensures (d := .register) hshown nofun
    (fun _ => List.mem_of_mem_head? hhead) rfl
  refine wp_change_bind (wp_seq hdialog fun registered s' h' => ?_)
  split
  · exact h'.changes { h'.mayShow with }
  · exact h'.toDesktopOk

theorem registerDlgOnSubmit_keeps (h : AtWork ds s) (hhead : ds.head? = some .register)
    (user password confirm email : Field) :
    KeepsOk ds (CMainFrame.registerDlgOnSubmit user password confirm email) s := by
  unfold CMainFrame.registerDlgOnSubmit
  split
  · exact h.changes { h.mayShow with }
  · refine wp_seq (registerUser_ensures h (List.mem_of_mem_head? hhead) _ _ _)
      fun error s' h' => ?_
    cases error with
    | none => exact wp_seq (messageBox_ensures h' _) fun _ _ h' => h'.ends hhead rfl
    | some text => exact h'.changes { h'.mayShow with }

theorem changeEmailDlgOnSubmit_keeps (h : AtWork ds s)
    (hhead : ds.head? = some .changeEmail) (password email : Field) :
    KeepsOk ds (CMainFrame.changeEmailDlgOnSubmit password email) s := by
  unfold CMainFrame.changeEmailDlgOnSubmit
  dsimp only
  split
  · exact h.changes { h.mayShow with }
  · split
    · exact h.changes { h.mayShow with }
    · refine wp_seq (changeEmail_ensures h _ _) fun error s' h' => ?_
      cases error with
      | none => exact h'.ends hhead rfl
      | some text => exact h'.changes { h'.mayShow with }

theorem onAlertTypeChanged_keeps (h : AtWork ds s) (sel : ℤ)
    (hcombo : s.window.editorView.typeCombo = true) :
    KeepsOk ds CMainFrame.onAlertTypeChanged { s with window := { s.window with
      editor := { s.window.editor with typeSel := sel } } } := by
  rw [h.windowOk.editorView] at hcombo
  refine wp_look_bind ?_
  split
  · have hshown : AtWork ds { s with window := { s.window with
        editor := { s.window.editor with typeSel := sel } }.updateEditorMode } :=
      h.show { h.mayShow with
        buttons := rfl
        editorView := rfl }
    exact hshown.toDesktopOk
  · rename_i hedit
    exact absurd hcombo hedit

theorem onPriceTimer_keeps (h : AtWork ds s) : KeepsOk ds CMainFrame.onPriceTimer s := by
  refine wp_look_bind ?_
  split
  · exact wp_mono (refreshCurrentPrices_ensures h) fun _ _ hs' => hs'.1.toDesktopOk
  · exact h.toDesktopOk

theorem isTriggered_not_isAlert {line : Bytes} (h : isTriggered line = true) :
    isAlert line = false :=
  not_isAlert (startsWith_iff.mp h) (by decide) (by decide)

theorem AtWork.hears (h : AtWork ds s) {line : Text}
    (hline : isTriggered line.val = true) :
    DesktopOk ds ((WindowMessage.push line).effect s) :=
  { h with
    own := fun hfit =>
      { h.own hfit with
        heard := fun hconn => List.forall_mem_append.mpr
          ⟨(h.own hfit).heard hconn, List.forall_mem_singleton.mpr fun halert =>
            absurd halert
              (by rw [isTriggered_not_isAlert hline]; exact Bool.false_ne_true)⟩
        fresh := fun hconn huser =>
          List.forall_mem_append.mpr ⟨(h.own hfit).fresh hconn huser,
            List.forall_mem_singleton.mpr (isTriggered_not_isAlert hline)⟩ } }

theorem AtWork.otherCall (h : AtWork ds s) (c : Call) :
    DesktopOk ds { s with world := (exec c s.world).2 } :=
  { h with
    own := fun hfit =>
      { h.own hfit with
        list := fun row hrow => ((h.own hfit).list row hrow).after c
        edit := fun hedit => ((h.own hfit).edit hedit).after c
        asked := fun hne id hid => ((h.own hfit).asked hne id hid).after c
        heard := fun hconn line hline =>
          ((h.own hfit).heard hconn line hline).mono fun _ hid => hid.after c } }

/-! ## Runs -/

/-- What the specs of the handlers need to know of the state a message comes in. -/
def WindowMessage.Comes (ds : List WindowDialog) (s : Desktop) : WindowMessage → Prop
  | loginDlgLogin _ _ | loginDlgRegister => ds.head? = some .login
  | registerDlgSubmit _ _ _ _ => ds.head? = some .register
  | changeEmailDlgSubmit _ _ => ds.head? = some .changeEmail
  | push line => isTriggered line = true
  | logout => ds = []
  | modifyPrice => s.window.buttons.modPriceBtn = true
  | deleteAlert => ds = [] ∧ s.window.buttons.deleteBtn = true
  | alertType _ => s.window.editorView.typeCombo = true
  | _ => True

theorem WindowMessage.possible_cases {m : WindowMessage} (h : m.possible ds s = true) :
    s.window.closed = false ∧ s.dialogEnded = false ∧ m.Comes ds s := by
  unfold possible at h
  simp only [Bool.and_eq_true, Bool.not_eq_true'] at h
  refine ⟨h.1.1, h.1.2, ?_⟩
  cases m <;> simp_all [Comes, button]

theorem AtWork.handles (h : AtWork ds s) {m : WindowMessage} (hm : m.Comes ds s) :
    KeepsOk ds m.handler (m.effect s) := by
  have hbuttons := h.windowOk.buttons
  cases m with
  | setEmail => exact onSetEmail_keeps h
  | logout =>
      subst hm
      exact onLogout_keeps h
  | addPrice => exact onAddPrice_keeps h
  | modifyPrice =>
      rw [WindowMessage.Comes, hbuttons] at hm
      exact onModifyPrice_keeps h ((Bool.and_eq_true _ _).mp hm).2
  | modifyTime => exact keeps_of (h.change h.mayShow.enterAddMode)
  | deleteAlert =>
      obtain ⟨rfl, hm⟩ := hm
      rw [hbuttons] at hm
      exact onDeleteAlert_keeps h ((Bool.and_eq_true _ _).mp hm).2
  | refresh => exact onRefresh_keeps h
  | viewDeleted => exact onViewDeleted_keeps h
  | pickContract => exact onPickContract_keeps h
  | statusFilter sel =>
      exact onStatusFilterChanged_keeps (h.show (w := { s.window with statusSel := sel })
        { h.mayShow with })
  | alertType sel => exact onAlertTypeChanged_keeps h sel hm
  | listItem item => exact keeps_of (h.change (h.mayShow.enterEditMode item))
  | typed contract price timeText condSel =>
      exact (h.show (w := { s.window with
        editor := { s.window.editor with contract, price, timeText, condSel } })
        { h.mayShow with }).toDesktopOk
  | closeWindow => exact onClose_keeps h
  | loginDlgLogin user password => exact loginDlgOnLogin_keeps h hm user password
  | loginDlgRegister => exact loginDlgOnRegister_keeps h hm
  | registerDlgSubmit user password confirm email =>
      exact registerDlgOnSubmit_keeps h hm user password confirm email
  | changeEmailDlgSubmit password email =>
      exact changeEmailDlgOnSubmit_keeps h hm password email
  | posted m =>
      have htaken : AtWork ds { s with posted := s.posted.tail } :=
        { h with own := fun hfit => { h.own hfit with } }
      cases m with
      | triggered line => exact onTriggered_keeps htaken line
      | disconnected => exact onDisconnected_keeps htaken
      | postLogin => exact onPostLogin_keeps htaken
      | close => exact onClose_keeps htaken
  | toastTimer =>
      exact h.changes { h.mayShow with toast := fun htoast => absurd rfl htoast }
  | priceTimer => exact onPriceTimer_keeps h
  | push line => exact h.hears hm
  | receiverEnds => exact h.toDesktopOk.frame _ _ _ _
  | sessionCloses => exact h.toDesktopOk.frame _ _ _ _
  | otherCall c => exact h.otherCall c

theorem window_keeps : windowLoop.Keeps DesktopOk := by
  intro m ds s s' h htake
  obtain ⟨hpossible, htake⟩ := Option.ite_none_right_eq_some.mp htake
  obtain rfl := Option.some.inj htake
  obtain ⟨hclosed, hended, hm⟩ := WindowMessage.possible_cases hpossible
  exact AtWork.handles { h with closed := hclosed, notEnded := hended } hm

theorem start_ok (world : World) (network : ℕ → Outcome) :
    windowLoop.NestedOk DesktopOk (Desktop.start world network) := by
  refine enter_ok trivial (loginDialog_keeps ?_ rfl fun s' h' => ?_)
  · exact
      { window := fun _ =>
          { buttons := rfl
            editorView := rfl
            connected := fun hne => absurd rfl hne
            list := fun _ => rfl
            editMode := fun _ => rfl
            showDeletedOnly := fun _ => rfl
            priceTimer := fun _ => rfl
            toast := fun htoast => absurd rfl htoast }
        login := fun _ => .inl rfl
        register := nofun
        asked := nofun
        ended := nofun
        sent := List.forall_mem_nil _
        own := fun _ =>
          { list := List.forall_mem_nil _
            edit := nofun
            asked := fun hne => absurd rfl hne
            heard := nofun
            fresh := nofun
            sent := List.forall_mem_nil _ }
        closed := rfl
        notEnded := rfl }
  · exact { h'.toDesktopOk with
      window := nofun
      own := fun hfit => { h'.own hfit with } }

section

variable {world : World} {network : ℕ → Outcome}
  {t : List (LoopAction WindowMessage ℕ)} {s : Nested WindowOp.Ans WindowDialog ℕ Desktop}

theorem window_ok (h : windowLoop.machine.AnyRun (Desktop.start world network) t s) :
    DesktopOk s.dialogs s.state := (keeps window_keeps (start_ok world network) h).state

/-- In every run a command other than LOGIN and REGISTER is sent while a user is logged
in, and the name it gives is that of the user. If the commands fit the buffer, each
command for an alert is for one of the user of the session that gets it. -/
theorem window_commands
    (h : windowLoop.machine.AnyRun (Desktop.start world network) t s) :
    (∀ e ∈ s.state.sent, RightCommand e) ∧
      (AllFit s.state.sent → ∀ e ∈ s.state.sent, ForOwnAlert e) :=
  ⟨(window_ok h).sent, fun hfit => ((window_ok h).own hfit).sent⟩

/-- Her password. -/
def annTyped : Field := editText (cstr (ascii "x"))

/-- She logs in, selects her alert and deletes it. -/
def annDeletes : List (LoopAction WindowMessage ℕ) :=
  [.handle (.loginDlgLogin annName annTyped), .close CMainFrame.idOk,
    .handle (.posted .postLogin), .handle (.listItem 0), .handle .deleteAlert,
    .close CMainFrame.idYes]

/-- The DELETE is for her alert. -/
theorem window_commands_delete :
    ∃ s, windowLoop.machine.AnyRun (Desktop.start annStored fun _ => ⟨true, none⟩)
        annDeletes s ∧
      ∃ e ∈ s.state.sent, e.command.text = ascii "DELETE 1" ∧ ForOwnAlert e := by
  have hparts : (windowLoop.machine.follow (Desktop.start annStored fun _ => ⟨true, none⟩)
      annDeletes).map (fun s => (decide (AllFit s.state.sent),
        decide (∃ e ∈ s.state.sent, e.command.text = ascii "DELETE 1"))) =
          some (true, true) := by
    decide +kernel
  obtain ⟨s, hs, hparts⟩ := Option.map_eq_some_iff.mp hparts
  simp only [Prod.mk.injEq, decide_eq_true_eq] at hparts
  obtain ⟨hfit, e, he, htext⟩ := hparts
  have hrun := Machine.run_of_follow hs
  exact ⟨s, hrun, e, he, htext, (window_commands hrun).2 hfit e he⟩

/-- In every run the controls agree with the state of the window. -/
theorem window_consistent
    (h : windowLoop.machine.AnyRun (Desktop.start world network) t s)
    (hopen : s.state.window.closed = false) : MainWindowOk s.state.window :=
  (window_ok h).window hopen

/-- So it is while she is asked whether to delete it. -/
theorem window_consistent_delete :
    ∃ s, windowLoop.machine.AnyRun (Desktop.start annStored fun _ => ⟨true, none⟩)
        (annDeletes.take 5) s ∧
      s.dialogs = [.question (CMainFrame.deleteQuestion (ascii "1"))] ∧
      s.state.window.loggedIn = true ∧ s.state.window.editMode = true ∧
      MainWindowOk s.state.window := by
  have hparts : (windowLoop.machine.follow (Desktop.start annStored fun _ => ⟨true, none⟩)
      (annDeletes.take 5)).map (fun s => (s.dialogs, s.state.window.loggedIn,
        s.state.window.editMode, s.state.window.closed)) =
      some ([.question (CMainFrame.deleteQuestion (ascii "1"))], true, true, false) := by
    decide +kernel
  obtain ⟨s, hs, hparts⟩ := Option.map_eq_some_iff.mp hparts
  simp only [Prod.mk.injEq] at hparts
  obtain ⟨hdialogs, hin, hedit, hopen⟩ := hparts
  have hrun := Machine.run_of_follow hs
  exact ⟨s, hrun, hdialogs, hin, hedit, window_consistent hrun hopen⟩

end

/-! ## After a logout -/

/-- No user is logged in, and only message boxes are open; the commands that have been
sent are `sent`. -/
structure LoggedOut (sent : List Sent) (ds : List WindowDialog) (s : Desktop) : Prop where
  username : s.window.username = MainWindow.emptyText
  boxes : ∀ d ∈ ds, ∃ text, d = .messageBox text
  sent : s.sent = sent

section

variable {sent : List Sent}

/-- The handler sends nothing and logs nobody in. -/
abbrev StaysOut (sent : List Sent) (ds : List WindowDialog)
    (p : WindowCode Unit) (s : Desktop) : Prop :=
  windowLoop.wp (LoggedOut sent) ds (fun _ => LoggedOut sent ds) p s

theorem LoggedOut.not_loggedIn (h : LoggedOut sent ds s) : s.window.loggedIn = false := by
  rw [Bool.eq_false_iff]
  exact fun hin => ((loggedIn_iff _).mp hin).2 h.username

theorem messageBox_staysOut (h : LoggedOut sent ds s) (text : Bytes) :
    StaysOut sent ds (CMainFrame.messageBox text) s := by
  refine ⟨{ h with boxes := List.forall_mem_cons.mpr ⟨⟨text, rfl⟩, h.boxes⟩ },
    fun _ s' h' _ => ?_⟩
  exact { h' with boxes := (List.forall_mem_cons.mp h'.boxes).2 }

theorem refreshAlerts_staysOut (h : LoggedOut sent ds s) :
    StaysOut sent ds CMainFrame.refreshAlerts s := by
  have hensure : windowLoop.wp (LoggedOut sent) ds
      (fun loggedIn s' => loggedIn = false ∧ LoggedOut sent ds s')
      CMainFrame.ensureLoggedIn s := by
    refine wp_look_bind ?_
    rw [h.not_loggedIn, if_neg Bool.false_ne_true]
    exact wp_seq (messageBox_staysOut h _) fun _ s' h' => ⟨rfl, h'⟩
  refine wp_seq hensure fun loggedIn s' hs' => ?_
  obtain ⟨rfl, h'⟩ := hs'
  exact h'

theorem onClose_staysOut (h : LoggedOut sent ds s) :
    StaysOut sent ds CMainFrame.onClose s := by
  refine wp_bind.mpr (wp_seq (stopConnection_wp _ _) fun _ s' hs' => ?_)
  subst hs'
  exact { h with }

theorem onDisconnected_staysOut (h : LoggedOut sent ds s) :
    StaysOut sent ds CMainFrame.onDisconnected s := by
  refine wp_look_bind ?_
  split
  · exact h
  · exact { h with username := rfl }

theorem onTriggered_staysOut (h : LoggedOut sent ds s) (line : Text) :
    StaysOut sent ds (CMainFrame.onTriggered line) s := by
  refine wp_bind.mpr (wp_seq (messageBox_staysOut ?_ _) fun _ s' h' =>
    refreshAlerts_staysOut h')
  exact { h with }

/-- A handler that does nothing while no user is logged in. -/
theorem loggedIn_staysOut (h : LoggedOut sent ds s) (p : WindowCode Unit) :
    StaysOut sent ds (do
      let w ← CMainFrame.look
      if !w.loggedIn then return () else p) s := by
  refine wp_look_bind ?_
  rw [h.not_loggedIn]
  exact h

theorem WindowMessage.possible_button {m : WindowMessage} (h : m.possible ds s = true) :
    m.button s.window.buttons = true := by
  unfold possible at h
  cases m <;> simp_all [button]

/-- What no message changes once a user has logged out. -/
theorem LoggedOut.handles (h : LoggedOut sent ds s) (hok : AtWork ds s)
    {m : WindowMessage}
    (hm : m.possible ds s = true) : StaysOut sent ds m.handler (m.effect s) := by
  have hbutton := WindowMessage.possible_button hm
  have hout := h.not_loggedIn
  rw [hok.windowOk.buttons] at hbutton
  have hbox : ∀ d, ds.head? = some d → ∃ text, d = .messageBox text :=
    fun d hd => h.boxes d (List.mem_of_mem_head? hd)
  have heffect : LoggedOut sent ds (m.effect s) := by cases m <;> exact { h with }
  obtain ⟨-, -, hcomes⟩ := WindowMessage.possible_cases hm
  cases m with
  | setEmail | logout | addPrice | modifyPrice | modifyTime | deleteAlert
      | refresh | viewDeleted
  | pickContract => simp [WindowMessage.button, MainWindow.buttonState, hout] at hbutton
  | loginDlgLogin | loginDlgRegister | registerDlgSubmit | changeEmailDlgSubmit =>
      obtain ⟨text, htext⟩ := hbox _ hcomes
      cases htext
  | statusFilter sel => exact loggedIn_staysOut heffect _
  | alertType sel =>
      refine wp_look_bind ?_
      split
      · exact { heffect with }
      · exact heffect
  | listItem item =>
      have husername : (s.window.enterEditMode item).username = s.window.username := by
        unfold MainWindow.enterEditMode
        split <;> rfl
      exact { h with username := husername.trans h.username }
  | closeWindow => exact onClose_staysOut h
  | posted m =>
      cases m with
      | triggered line => exact onTriggered_staysOut heffect line
      | disconnected => exact onDisconnected_staysOut heffect
      | postLogin => exact loggedIn_staysOut heffect _
      | close => exact onClose_staysOut heffect
  | priceTimer =>
      refine wp_look_bind (s := s) ?_
      rw [hout]
      exact h
  | typed | toastTimer | push | receiverEnds | sessionCloses | otherCall =>
      exact { h with }

theorem loggedOut_keeps :
    windowLoop.Keeps fun ds s => DesktopOk ds s ∧ LoggedOut sent ds s := by
  intro m ds s s' h htake
  refine wp_and (window_keeps m ds s s' h.1 htake) ?_
  obtain ⟨hpossible, htake⟩ := Option.ite_none_right_eq_some.mp htake
  obtain rfl := Option.some.inj htake
  obtain ⟨hclosed, hended, -⟩ := WindowMessage.possible_cases hpossible
  exact h.2.handles { h.1 with closed := hclosed, notEnded := hended } hpossible

/-- When a user has been logged out and no dialog is open, nobody logs in any more,
nothing is sent, and the list stays empty. -/
theorem loggedOut_is_final {world : World} {network : ℕ → Outcome}
    {t t' : List (LoopAction WindowMessage ℕ)}
    {s s' : Nested WindowOp.Ans WindowDialog ℕ Desktop}
    (h : windowLoop.machine.AnyRun (Desktop.start world network) t s)
    (hframes : s.frames = []) (huser : s.state.window.username = MainWindow.emptyText)
    (h' : windowLoop.machine.AnyRun s t' s') :
    s'.state.window.username = MainWindow.emptyText ∧ s'.state.sent = s.state.sent ∧
      (s'.state.window.closed = false → s'.state.window.list = []) := by
  have hdialogs : s.dialogs = [] := by rw [Nested.dialogs, hframes, List.map_nil]
  have hstart : windowLoop.NestedOk
      (fun ds s' => DesktopOk ds s' ∧ LoggedOut s.state.sent ds s') s :=
    { state := ⟨window_ok h, huser, by rw [hdialogs]; exact List.forall_mem_nil _, rfl⟩
      waiting := by rw [hframes]; trivial }
  obtain ⟨hok, hout⟩ := (keeps loggedOut_keeps hstart h').state
  exact ⟨hout.username, hout.sent, fun hopen => (hok.window hopen).list hout.username⟩

/-- The server goes away while she is logged in. -/
def annLosesServer : List (LoopAction WindowMessage ℕ) :=
  [.handle (.loginDlgLogin annName annTyped), .close CMainFrame.idOk,
    .handle (.posted .postLogin), .handle .receiverEnds, .handle (.posted .disconnected)]

/-- From then on she can do no more than type. -/
theorem loggedOut_is_final_disconnected :
    ∃ s s', windowLoop.machine.AnyRun (Desktop.start annStored fun _ => ⟨true, none⟩)
        annLosesServer s ∧
      windowLoop.machine.AnyRun s [.handle (.typed annName annName annName 0)] s' ∧
      s'.state.window.closed = false ∧ s'.state.window.list = [] := by
  have hparts : (windowLoop.machine.follow (Desktop.start annStored fun _ => ⟨true, none⟩)
      annLosesServer).map (fun s => (s.dialogs, s.state.window.username,
        (windowLoop.machine.follow s [.handle (.typed annName annName annName 0)]).map
          fun s' => s'.state.window.closed)) = some ([], MainWindow.emptyText,
            some false) := by
    decide +kernel
  obtain ⟨s, hs, hparts⟩ := Option.map_eq_some_iff.mp hparts
  simp only [Prod.mk.injEq] at hparts
  obtain ⟨hdialogs, huser, hafter⟩ := hparts
  obtain ⟨s', hs', hopen⟩ := Option.map_eq_some_iff.mp hafter
  have hrun := Machine.run_of_follow hs
  have hrun' := Machine.run_of_follow hs'
  exact ⟨s, s', hrun, hrun', hopen,
    (loggedOut_is_final hrun (List.map_eq_nil_iff.mp hdialogs) huser hrun').2.2 hopen⟩

end

end CloudAlert
