import CloudAlert.Client.WindowRuns

/-!
# Refresh

What the Refresh button makes of the window when the session answers in time and the
commands and lines fit their buffers: the list has the chosen alerts of the user, as the
table has them and with the last prices of their contracts, and the label has the address
of the account (`onRefresh_shows`). What was in the window before does not matter.
-/

namespace CloudAlert

open Program MessageLoop

/-! ## Commands that are answered -/

/-- The session answers the next `n` commands in time. -/
structure AnswersNext (n : ℕ) (s : Desktop) : Prop where
  sessionOpen : s.sessionOpen = true
  network : ∀ k < n, s.network k = ⟨true, none⟩

section

variable {n : ℕ} {s : Desktop} {c : ClientCommand} {lines : List Bytes} {w : World}
  {inv : List WindowDialog → Desktop → Prop} {ds : List WindowDialog}

/-- The state once the session has answered a command. -/
def Desktop.answered (s : Desktop) (c : ClientCommand) (lines : List Bytes) (w : World) :
    Desktop :=
  { s.sending c with heard := s.heard ++ lines, world := w }

theorem AnswersNext.next {s' : Desktop} (h : AnswersNext (n + 1) s)
    (hopen : s'.sessionOpen = s.sessionOpen)
    (hnetwork : ∀ k, s'.network k = s.network (k + 1)) : AnswersNext n s' where
  sessionOpen := hopen.trans h.sessionOpen
  network k hk := (hnetwork k).trans (h.network (k + 1) (Nat.succ_lt_succ hk))

theorem exchange_answered (h : AnswersNext (n + 1) s)
    (hfits : c.text.length ≤ recvBufSize)
    (hrun : run exec (dispatch s.session c.text) s.world =
      ((s.session, ⟨lines, false⟩), w))
    (htaken : Taken c.expectEnd lines) :
    s.exchange c = ((true, lines), s.answered c lines w) := by
  have houtcome : s.outcome = ⟨true, none⟩ := h.network 0 (Nat.succ_pos n)
  have hlines : (run exec (dispatch s.session c.text) s.world).1.2.lines = lines := by
    rw [hrun]
  have hserve : (s.sending c).serve c = s.answered c lines w := by
    have hsent : run exec (dispatch (s.sending c).session c.text) (s.sending c).world =
        ((s.session, ⟨lines, false⟩), w) := hrun
    unfold Desktop.serve
    rw [(received_text_iff c).mpr hfits]
    dsimp only
    rw [hsent]
    exact congrArg (fun o => { s.answered c lines w with sessionOpen := o })
      h.sessionOpen.symm
  unfold Desktop.exchange
  rw [houtcome, promptReply_eq hfits hlines htaken, h.sessionOpen]
  exact congrArg (Prod.mk _) hserve

theorem sendCommand_answered (h : AnswersNext (n + 1) s)
    (hconn : s.window.connected = true) (hfits : c.text.length ≤ recvBufSize)
    (hrun : run exec (dispatch s.session c.text) s.world =
      ((s.session, ⟨lines, false⟩), w))
    (htaken : Taken c.expectEnd lines) :
    windowLoop.wp inv ds
      (fun reply s' => reply = (true, lines) ∧ s' = s.answered c lines w)
      (CMainFrame.sendCommand c) s := by
  refine wp_look_bind ?_
  rw [if_pos hconn]
  change (s.exchange c).1 = _ ∧ (s.exchange c).2 = _
  rw [exchange_answered h hfits hrun htaken]
  exact ⟨rfl, rfl⟩

end

/-! ## GET_EMAIL -/

section

variable {self : Session} {w : World} {username : Field}

theorem run_dispatch_getEmail (hself : 0 ≤ self.userId)
    (hname : self.username = username.val) (htoken : IsToken username.val) :
    run exec (dispatch self (ClientCommand.getEmail username).text) w =
      ((self, ⟨[ascii "OK " ++ (w.db.getEmail .none self.userId).val], false⟩), w) := by
  have hwords : splitLine (ClientCommand.getEmail username).text =
      [ascii "GET_EMAIL", username.val] :=
    ClientCommand.splitLine_text (List.forall_mem_singleton.mpr htoken)
  have hdispatch : dispatch self (ClientCommand.getEmail username).text =
      handleGetEmail self (ClientCommand.getEmail username).text := by
    unfold dispatch
    rw [ClientCommand.commandWord_text]
    rfl
  rw [hdispatch, handleGetEmail, if_neg (not_lt.mpr hself), hwords]
  dsimp only
  rw [if_neg (not_not.mpr hname.symm)]
  rfl

end

/-! ## The handlers -/

/-- The alerts that the list is to show. -/
def Desktop.chosen (s : Desktop) : List AlertRecord :=
  s.world.db.alerts.select (s.window.listChoice.views s.session s.window.username)

/-- A user is logged in at both ends under a one-word name, the user's alerts can be
listed and the address is plain, and the commands and the PRICE lines fit their
buffers. -/
structure CanShow (s : Desktop) : Prop where
  loggedIn : s.window.loggedIn = true
  userId : 0 ≤ s.session.userId
  sameName : s.session.username = s.window.username.val
  oneWord : IsToken s.window.username.val
  stored : s.world.db.Stored
  plainEmail : ∀ b ∈ (s.world.db.getEmail .none s.session.userId).val, Plain b
  listable : ∀ r ∈ s.world.db.alerts.rows, r.userId = s.session.userId → Listable r
  emailFits : (ClientCommand.getEmail s.window.username).text.length ≤ recvBufSize
  queryFits : (ClientCommand.query s.window.username
    s.window.listChoice.status).text.length ≤
    recvBufSize
  pricesFit : (ClientCommand.getPrices
    (listedContracts (s.chosen.map AlertRecord.shown))).text.length ≤ recvBufSize
  quotesFit : ∀ r ∈ s.chosen, priceLineWidth r.contract
    (s.world.lastPrices r.contract) < 256

section

variable {n : ℕ} {s : Desktop} {inv : List WindowDialog → Desktop → Prop}
  {ds : List WindowDialog}

theorem CanShow.connected (hs : CanShow s) : s.window.connected = true :=
  ((loggedIn_iff _).mp hs.loggedIn).1

theorem emailText_ok {email : Bytes} (h : ∀ b ∈ email, Plain b) :
    (CMainFrame.emailText (ascii "OK " ++ email)).val = email := by
  have hdrop : (ascii "OK " ++ email).drop 3 = email := rfl
  change (List.filter _ (cstr ((ascii "OK " ++ email).drop 3)).val) = email
  rw [hdrop, cstr_of_plain h]
  exact List.filter_eq_self.mpr fun b hb => decide_eq_true (h b hb).2

theorem refreshEmail_shows (h : AnswersNext (n + 1) s) (hs : CanShow s) :
    windowLoop.wp inv ds
      (fun _ s' => AnswersNext n s' ∧ CanShow s' ∧ s'.chosen = s.chosen ∧
        s'.world = s.world ∧ s'.window.listChoice = s.window.listChoice ∧
        s'.window.email.val = (s.world.db.getEmail .none s.session.userId).val)
      CMainFrame.refreshEmail s := by
  have hstatus :
      IsStatus (ascii "OK " ++ (s.world.db.getEmail .none s.session.userId).val) :=
    ⟨.inl ⟨_, rfl⟩, List.forall_mem_append.mpr ⟨by decide, hs.plainEmail⟩⟩
  have hrun := run_dispatch_getEmail (w := s.world) hs.userId hs.sameName hs.oneWord
  refine wp_look_bind ?_
  rw [hs.loggedIn]
  refine wp_seq (sendCommand_answered h hs.connected hs.emailFits hrun hstatus.taken)
    fun reply s' hs' => ?_
  obtain ⟨rfl, rfl⟩ := hs'
  exact ⟨h.next rfl fun _ => rfl, { hs with }, rfl, rfl, rfl, emailText_ok hs.plainEmail⟩

theorem refreshCurrentPrices_shows (records : List AlertRecord)
    (h : AnswersNext (n + 1) s)
    (hin : s.window.loggedIn = true) (hself : 0 ≤ s.session.userId)
    (hlist : s.window.list = records.map AlertRecord.shown)
    (htoken : ∀ r ∈ records, IsToken r.contract.val)
    (hfits : (ClientCommand.getPrices
      (listedContracts (records.map AlertRecord.shown))).text.length ≤ recvBufSize)
    (hquotes : ∀ r ∈ records, priceLineWidth r.contract
      (s.world.lastPrices r.contract) < 256) :
    windowLoop.wp inv ds (fun _ s' =>
        s'.window.list = records.map (fun r => r.shown.priced s.world.lastPrices) ∧
        s'.window.email = s.window.email ∧ s'.world.db = s.world.db ∧
        (s.world.marketData = true → ∀ r ∈ records,
          r.contract.val ∈ s'.world.subscribed) ∧
        s'.window.showDeletedOnly = s.window.showDeletedOnly)
      CMainFrame.refreshCurrentPrices s := by
  have hrowToken : ∀ row ∈ records.map AlertRecord.shown, IsToken row.contract.val :=
    List.forall_mem_map.mpr htoken
  refine wp_look_bind ?_
  rw [hin, Bool.not_true, Bool.false_or]
  cases records with
  | nil =>
      have hnone : listedContracts s.window.list = [] := by
        rw [hlist]
        rfl
      rw [if_pos (decide_eq_true hnone)]
      exact ⟨hlist, rfl, rfl, fun _ => List.forall_mem_nil _, rfl⟩
  | cons r records =>
      have hne : (r :: records).map AlertRecord.shown ≠ [] := List.cons_ne_nil _ _
      have hlisted : listedContracts s.window.list ≠ [] := by
        intro hnil
        have hmem := (mem_listedContracts hrowToken r.contract.val).mpr
          ⟨r.shown, List.mem_cons_self, rfl⟩
        rw [← hlist, hnil] at hmem
        cases hmem
      rw [if_neg (by simpa using hlisted), hlist]
      obtain ⟨hreply, hdb, hsubscribed, htaken⟩ :=
        run_dispatch_getPrices (w := s.world) hself hne
        hrowToken (List.forall_mem_map.mpr hquotes)
      refine wp_seq (sendCommand_answered h ((loggedIn_iff _).mp hin).1 hfits
        (Prod.ext hreply rfl) htaken) fun reply s' hs' => ?_
      obtain ⟨rfl, rfl⟩ := hs'
      refine ⟨?_, rfl, hdb, fun hdata r' hr' => ?_, rfl⟩
      · change (currentPrices _ (some _)).1 = _
        rw [currentPrices_quotes hrowToken, List.map_map]
        rfl
      · exact hsubscribed hdata r'.shown (List.mem_map_of_mem hr')

theorem refreshAlerts_shows (h : AnswersNext 2 s) (hs : CanShow s) :
    windowLoop.wp inv ds (fun _ s' =>
        s'.window.list = s.chosen.map (fun r => r.shown.priced s.world.lastPrices) ∧
        s'.window.email = s.window.email ∧ s'.world.db = s.world.db ∧
        (s.world.marketData = true → ∀ r ∈ s.chosen,
          r.contract.val ∈ s'.world.subscribed) ∧
        s'.window.statusText = ascii "Loaded " ++ fmtNat s.chosen.length ++
          if s.window.showDeletedOnly then ascii " deleted alert(s)."
            else ascii " alert(s).")
      CMainFrame.refreshAlerts s := by
  have hchosen : ∀ r ∈ s.chosen, IsToken r.contract.val := by
    intro r hr
    obtain ⟨hmem, hviewed⟩ := (Table.mem_select _).mp hr
    have howner := of_decide_eq_true (Bool.and_eq_true_iff.mp hviewed).1
    exact (hs.listable r hmem howner.1).contract
  have hname : splitLine s.window.username.val ≠ [] := by
    rw [splitLine_token hs.oneWord]
    exact List.cons_ne_nil _ _
  obtain ⟨items, hrun, hitems, hlist⟩ :=
    run_dispatch_query s.window.listChoice
      (listable_stored hs.stored hs.listable) hs.userId hname
  have hensure : windowLoop.wp inv ds (fun loggedIn s' => loggedIn = true ∧ s = s')
      CMainFrame.ensureLoggedIn s := by
    refine wp_look_bind ?_
    rw [if_pos hs.loggedIn]
    exact ⟨rfl, rfl⟩
  refine wp_seq hensure fun loggedIn s' hs' => ?_
  obtain ⟨rfl, rfl⟩ := hs'
  refine wp_change_bind (wp_look_bind ?_)
  refine wp_seq
    (sendCommand_answered ⟨h.sessionOpen, h.network⟩ hs.connected hs.queryFits hrun
    (taken_items hitems)) fun reply s' hs' => ?_
  obtain ⟨rfl, rfl⟩ := hs'
  have hlisted : refreshAlerts s.window.listChoice (items ++ [ascii "END"]) =
      s.chosen.map AlertRecord.shown := hlist
  refine wp_change_bind (wp_seq (refreshCurrentPrices_shows (n := 0) s.chosen
    (h.next rfl fun _ => rfl) hs.loggedIn hs.userId hlisted hchosen
    hs.pricesFit hs.quotesFit)
    fun _ s' hs' => ?_)
  obtain ⟨hrows', hemail, hdb, hsubscribed, hdeleted⟩ := hs'
  refine ⟨hrows', hemail, hdb, hsubscribed, ?_⟩
  change ascii "Loaded " ++ fmtNat s'.window.list.length ++ _ = _
  rw [hrows', List.length_map, hdeleted]
  rfl

/-- The window shows what the tables have: the address of the account, and the alerts that
the list is to show with the last prices of their contracts, which are subscribed. -/
structure Refreshed (s s' : Desktop) : Prop where
  email : s'.window.email.val = (s.world.db.getEmail .none s.session.userId).val
  list : s'.window.list = s.chosen.map fun r => r.shown.priced s.world.lastPrices
  statusText : s'.window.statusText = ascii "Loaded " ++ fmtNat s.chosen.length ++
    if s.window.showDeletedOnly then ascii " deleted alert(s)." else ascii " alert(s)."
  subscribed : s.world.marketData = true → ∀ r ∈ s.chosen,
    r.contract.val ∈ s'.world.subscribed
  db : s'.world.db = s.world.db

/-- Refresh shows what the tables have and leaves them as they are. -/
theorem onRefresh_shows (h : AnswersNext 3 s) (hs : CanShow s)
    (frames : List (Frame WindowOp.Ans WindowDialog ℕ)) :
    ∃ s', windowLoop.enter CMainFrame.onRefresh s frames = ⟨s', frames⟩ ∧
    Refreshed s s' := by
  have hrefreshed : windowLoop.wp (fun _ _ => False) [] (fun _ s' => Refreshed s s')
      CMainFrame.onRefresh s := by
    refine wp_seq (refreshEmail_shows h hs) fun _ s₁ hs₁ => ?_
    obtain ⟨h₁, hshow₁, hchosen, hworld, hchoice, hemail⟩ := hs₁
    refine wp_mono (refreshAlerts_shows h₁ hshow₁) fun _ s' hs' => ?_
    obtain ⟨hlist, hemail', hdb, hsubscribed, hstatus⟩ := hs'
    have hdeleted : s₁.window.showDeletedOnly = s.window.showDeletedOnly :=
      congrArg ListChoice.showDeletedOnly hchoice
    rw [hchosen] at hlist hsubscribed hstatus
    rw [hworld] at hlist hsubscribed hdb
    rw [hdeleted] at hstatus
    exact ⟨hemail' ▸ hemail, hlist, hstatus, hsubscribed, hdb⟩
  exact enter_of_wp hrefreshed frames

/-- ann is logged in and has not loaded anything. -/
def annDesktop : Desktop where
  window := { MainWindow.created with connected := true, username := annName }
  posted := []
  dialogEnded := false
  session := annSession
  sessionOpen := true
  sockets := 8
  heard := []
  world := annStored
  network := fun _ => ⟨true, none⟩
  sent := []

/-- She sees her alert, for whose contract there is no price yet. -/
theorem onRefresh_shows_ann :
    ∃ s', windowLoop.enter CMainFrame.onRefresh annDesktop [] = ⟨s', []⟩ ∧
      s'.window.email.val = ascii "a@b" ∧
      s'.window.list.map (fun row => (row.id.val, row.contract.val, row.current.val)) =
        [(ascii "1", ascii "rb2510", ascii "-")] := by
  have hshow : CanShow annDesktop :=
    { loggedIn := by decide
      userId := by decide
      sameName := rfl
      oneWord := by decide
      stored := annStored_stored
      plainEmail := by decide +kernel
      listable := fun r hr _ => annStored_listable r hr
      emailFits := by decide +kernel
      queryFits := by decide +kernel
      pricesFit := by decide +kernel
      quotesFit := by decide +kernel }
  obtain ⟨s', hs', hrefreshed⟩ := onRefresh_shows ⟨rfl, fun _ _ => rfl⟩ hshow []
  refine ⟨s', hs', ?_, ?_⟩
  · rw [hrefreshed.email]
    decide +kernel
  · rw [hrefreshed.list]
    decide +kernel

end

end CloudAlert
