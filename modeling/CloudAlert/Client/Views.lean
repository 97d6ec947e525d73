import CloudAlert.Client.AlertLine
import CloudAlert.Client.Dialogs
import CloudAlert.Server.Stored

/-!
# The views of the list

`RefreshAlerts` asks for the alerts by the name the window has logged in under and leaves
out the deleted ones, unless it shows them only. The server takes the user from the
session and the status from the third word of the line, so what it filters by is the
status that was asked for exactly if the name is one word. Then the views partition the
alerts of the user (`listViews_iff`).
-/

namespace CloudAlert

open Program

/-! ## `RefreshAlerts` -/

/-- What the list shows: `m_showDeletedOnly`, and the selection of the status box. -/
structure ListChoice where
  showDeletedOnly : Bool
  statusSel : ℤ

/-- The status of the QUERY. -/
def ListChoice.status (choice : ListChoice) : ℤ :=
  if choice.showDeletedOnly then 2
  else if choice.statusSel = 1 then 0
  else if choice.statusSel = 2 then 1
  else -1

/-- The loop body of `RefreshAlerts`: the row for the line, if it gets one. -/
def listedRow (choice : ListChoice) (line : Bytes) : Option AlertRow :=
  if ¬ startsWith (ascii "ALERT ") line then none
  else if ¬ choice.showDeletedOnly ∧ (clientSplit line)[7]? = some (ascii "2") then none
  else addAlertLine line

/-- The rows `RefreshAlerts` makes of the lines. -/
def refreshAlerts (choice : ListChoice) (lines : List Bytes) : List AlertRow :=
  lines.filterMap (listedRow choice)

/-- The lines `SendCommand` collects from the bytes to come, at most one line for each
unit of fuel. A TRIGGERED line goes to the other queue, and the result is `none` when the
bytes end before the reply does. -/
def collectReply (expectEnd : Bool) : ℕ → Bytes → List Bytes → Option (List Bytes)
  | 0, _, _ => none
  | fuel + 1, stream, lines =>
      match clientRecvLine [] stream with
      | none => none
      | some (line, rest) =>
          if isTriggered line then collectReply expectEnd fuel rest lines
          else if stops expectEnd line then some (lines ++ [line])
          else collectReply expectEnd fuel rest (lines ++ [line])

/-- The rows of the list after `RefreshAlerts`, with the session `self` at the other end.
It is `none` when the query times out. -/
def listView (w : World) (self : Session) (username : Field) (choice : ListChoice) :
    Option (List AlertRow) :=
  match received (ClientCommand.query username choice.status).text with
  | line :: _ =>
      let stream := (run exec (dispatch self line) w).1.2.lines.flatMap serverSendLine
      (collectReply true stream.length stream []).map (refreshAlerts choice)
  | [] => none

/-! ## The reply -/

/-- The client collects the lines of a reply that is complete. -/
theorem collectReply_sent {expectEnd : Bool} {body : List Bytes} {last : Bytes}
    (hplain : ∀ line ∈ body ++ [last], ReplyLine line)
    (hbody : ∀ line ∈ body, stops expectEnd line = false) (hlast : stops expectEnd last)
    {fuel : ℕ} (hfuel : body.length < fuel) (before : List Bytes) :
    collectReply expectEnd fuel ((body ++ [last]).flatMap serverSendLine) before =
      some (before ++ (body ++ [last])) := by
  have hrecv : ∀ line rest, ReplyLine line →
      clientRecvLine [] (serverSendLine line ++ rest) = some (line, rest) := by
    intro line rest hline
    have hkept : dropCR line = line :=
      List.filter_eq_self.mpr fun b hb => decide_eq_true (hline.1 b hb).2.2
    rw [serverSendLine, List.append_assoc, List.singleton_append,
      clientRecvLine_line (fun hmem => (hline.1 10 hmem).2.1 rfl), hkept, List.nil_append]
  induction body generalizing fuel before with
  | nil =>
      obtain ⟨fuel, rfl⟩ := Nat.exists_eq_add_one_of_ne_zero (Nat.ne_of_gt hfuel)
      have hline := hplain last List.mem_cons_self
      rw [List.nil_append, List.flatMap_cons, collectReply, hrecv last _ hline]
      dsimp only
      rw [hline.2, if_neg Bool.false_ne_true, if_pos hlast]
  | cons line body ih =>
      obtain ⟨fuel, rfl⟩ :=
        Nat.exists_eq_add_one_of_ne_zero (Nat.ne_of_gt (Nat.zero_lt_of_lt hfuel))
      obtain ⟨hline, hrest⟩ := List.forall_mem_cons.mp hplain
      obtain ⟨hgoes, hbody⟩ := List.forall_mem_cons.mp hbody
      rw [List.cons_append, List.flatMap_cons, collectReply, hrecv line _ hline]
      dsimp only
      rw [hline.2, if_neg Bool.false_ne_true, hgoes, if_neg Bool.false_ne_true,
        ih hrest hbody (Nat.lt_of_succ_lt_succ hfuel), List.append_assoc]
      rfl

theorem length_le_sent (lines : List Bytes) :
    lines.length ≤ (lines.flatMap serverSendLine).length := by
  induction lines with
  | nil => exact Nat.le_refl _
  | cons line lines ih =>
      rw [List.flatMap_cons, List.length_append, List.length_cons, serverSendLine,
        List.length_append, List.length_singleton]
      omega

/-- The alerts that the list shows of the ones the server has sent. -/
def ListChoice.shows (choice : ListChoice) (r : AlertRecord) : Bool :=
  choice.showDeletedOnly || r.status ≠ 2

/-- An alert that the list can show. -/
structure Listable (r : AlertRecord) : Prop extends TokenRow r where
  fits : alertLine r ≠ none

section

variable {r : AlertRecord}

theorem TokenRow.plainRow (h : TokenRow r) (hcreated : IsDateTime r.createdAt) :
    PlainRow r where
  contract := plain_of_isToken h.contract r.contract.property
  triggerTime := by
    rcases h.triggerTime with hempty | htoken
    · rw [hempty]
      exact plain_empty
    · exact plain_of_isToken htoken r.triggerTime.property
  createdAt := by
    obtain ⟨date, time, hdate, htime, hstamp⟩ := hcreated.fields
    rw [hstamp]
    refine plain_unwords ?_
    simp only [List.forall_mem_cons]
    exact ⟨plain_of_isToken hdate.1 hdate.2, plain_of_isToken htime.1 htime.2,
      List.forall_mem_nil _⟩

theorem listedRow_alertLine (choice : ListChoice) (h : TokenRow r)
    (hcreated : IsDateTime r.createdAt) {line : Bytes} (hline : alertLine r = some line) :
    listedRow choice line = if choice.shows r then some r.shown else none := by
  obtain ⟨-, -, hrow⟩ := alertLine_recovered h hcreated hline []
  obtain ⟨date, time, -, hprinted, hfields⟩ := alertLine_fields h hcreated hline
  have hsplit : clientSplit line = alertFields r date time := by
    rw [hprinted]
    exact (line_arrives hfields []).2.2
  have hprefix : startsWith (ascii "ALERT ") line = true := by
    rw [startsWith_iff, hprinted]
    exact ⟨_, rfl⟩
  have hdeleted : (clientSplit line)[7]? = some (ascii "2") ↔ r.status = 2 := by
    rw [hsplit]
    exact Option.some_inj.trans (fmtInt_eq_iff (by decide))
  have hshows : choice.shows r ↔
      ¬ (¬ choice.showDeletedOnly ∧ (clientSplit line)[7]? = some (ascii "2")) := by
    rw [hdeleted]
    simp [ListChoice.shows, imp_iff_not_or]
  rw [listedRow, if_neg (not_not.mpr hprefix), hrow]
  by_cases hshown : choice.shows r
  · rw [if_pos hshown, if_neg (hshows.mp hshown)]
  · rw [if_neg hshown, if_pos (not_not.mp fun hnot => hshown (hshows.mpr hnot))]

theorem refreshAlerts_list (choice : ListChoice) {records : List AlertRecord}
    (hrows : ∀ r ∈ records, TokenRow r ∧ IsDateTime r.createdAt) {items : List Bytes}
    (hitems : records.map alertLine = items.map some) :
    refreshAlerts choice (items ++ [ascii "END"]) =
      (records.filter choice.shows).map AlertRecord.shown := by
  induction records generalizing items with
  | nil =>
      obtain rfl := List.map_eq_nil_iff.mp hitems.symm
      rfl
  | cons r records ih =>
      obtain ⟨line, items, rfl, hline, hrest⟩ := List.map_eq_cons_iff.mp hitems.symm
      obtain ⟨⟨htoken, hcreated⟩, hrows⟩ := List.forall_mem_cons.mp hrows
      have hlisted := listedRow_alertLine choice htoken hcreated hline.symm
      have ih := ih hrows hrest.symm
      unfold refreshAlerts at ih ⊢
      rw [List.cons_append]
      by_cases hshown : choice.shows r
      · rw [if_pos hshown] at hlisted
        rw [List.filterMap_cons_some hlisted, ih,
          List.filter_cons_of_pos hshown, List.map_cons]
      · rw [if_neg hshown] at hlisted
        rw [List.filterMap_cons_none hlisted, ih, List.filter_cons_of_neg hshown]

end

/-! ## QUERY -/

/-- The status that the session reads from the QUERY line. -/
def askedStatus (username : Bytes) (status : ℤ) : ℤ :=
  match splitLine username with
  | _ :: word :: _ => atoi word
  | _ => status

/-- The alerts that the list shows. -/
def ListChoice.views (choice : ListChoice) (self : Session) (username : Bytes)
    (r : AlertRecord) : Bool :=
  decide (r.userId = self.userId ∧ (askedStatus username choice.status = -1 ∨
    r.status = askedStatus username choice.status)) && choice.shows r

theorem query_tokens {username : Field} (hname : splitLine username.val ≠ [])
    (choice : ListChoice) :
    ∃ word user status rest, splitLine (ClientCommand.query username choice.status).text =
      word :: user :: status :: rest ∧ atoi status =
      askedStatus username choice.status := by
  have hread : atoi (fmtInt choice.status) = choice.status := by
    rw [atoi_of_numeral (isIntNumeral_fmtInt _), intValue_fmtInt]
    unfold ListChoice.status
    repeat' split
    all_goals decide
  have hword : IsToken (ascii "QUERY") := by decide
  have htokens : splitLine (ClientCommand.query username choice.status).text =
      ascii "QUERY" :: (splitLine username.val ++ [fmtInt choice.status]) := by
    rw [ClientCommand.text, ClientCommand.word, ClientCommand.arguments,
      unwords_cons_cons, unwords_cons_cons, unwords_singleton,
      splitLine_token_append hword, splitLine_append (by decide),
      splitLine_token (isToken_fmtInt _)]
  unfold askedStatus
  generalize splitLine username.val = words at htokens hname
  obtain _ | ⟨user, _ | ⟨status, rest⟩⟩ := words
  · exact absurd rfl hname
  · exact ⟨_, user, fmtInt choice.status, [], htokens, hread⟩
  · exact ⟨_, user, status, rest ++ _, htokens, rfl⟩

theorem alertLines_items {records : List AlertRecord} {items : List Bytes}
    (h : records.map alertLine = items.map some) :
    alertLines records = ⟨items ++ [ascii "END"], false⟩ := by
  induction records generalizing items with
  | nil =>
      obtain rfl := List.map_eq_nil_iff.mp h.symm
      rfl
  | cons r records ih =>
      obtain ⟨line, items, rfl, hline, hrest⟩ := List.map_eq_cons_iff.mp h.symm
      rw [alertLines, ← hline, ih hrest.symm]
      rfl

theorem listable_stored {db : AlertDB} {userId : ℤ} (hstored : db.Stored)
    (h : ∀ r ∈ db.alerts.rows, r.userId = userId → Listable r) :
    ∀ r ∈ db.alerts.rows, r.userId = userId → Listable r ∧ IsDateTime r.createdAt := by
  intro r hr howner
  obtain ⟨now, hnow⟩ := (hstored.storedRow r hr).createdAt
  exact ⟨h r hr howner, hnow ▸ now.isDateTime_stamp⟩

/-- The session answers with the ALERT lines of the alerts that were asked for. -/
theorem run_dispatch_query {w : World} {self : Session} {username : Field}
    (choice : ListChoice)
    (hrows : ∀ r ∈ w.db.alerts.rows, r.userId = self.userId →
      Listable r ∧ IsDateTime r.createdAt)
    (hself : 0 ≤ self.userId) (hname : splitLine username.val ≠ []) :
    ∃ items,
      run exec (dispatch self (ClientCommand.query username choice.status).text) w =
        ((self, ⟨items ++ [ascii "END"], false⟩), w) ∧
      (∀ line ∈ items, IsItem line) ∧
      refreshAlerts choice (items ++ [ascii "END"]) =
        (w.db.alerts.select (choice.views self username)).map AlertRecord.shown := by
  obtain ⟨word, user, status, rest, htokens, hasked⟩ := query_tokens hname choice
  have hrequested : ∀ r ∈ w.db.requested self status, Listable r ∧
      IsDateTime r.createdAt := by
    intro r hr
    obtain ⟨hmem, hasked⟩ := (Table.mem_select _).mp hr
    exact hrows r hmem (of_decide_eq_true hasked).1
  obtain ⟨items, hitems, -⟩ := alertLines_eq_append fun r hr => (hrequested r hr).1.fits
  have hreply :
      run exec (dispatch self (ClientCommand.query username choice.status).text) w =
      ((self, alertLines (w.db.requested self status)), w) := by
    rw [dispatch_query _ _ (ClientCommand.commandWord_text _), handleQuery,
      if_neg (not_lt.mpr hself), htokens]
    change ((self, alertLines (w.db.queryAlerts .none self.userId (atoi status))), w) = _
    rw [queryAlerts_eq, Faults.none_query]
  rw [alertLines_items hitems] at hreply
  have hisItem : ∀ line ∈ items, IsItem line := by
    intro line hline
    have hmem : some line ∈ (w.db.requested self status).map alertLine :=
      hitems ▸ List.mem_map_of_mem hline
    obtain ⟨r, hr, hprinted⟩ := List.mem_map.mp hmem
    obtain ⟨hlistable, hcreated⟩ := hrequested r hr
    exact alertLine_isItem (hlistable.plainRow hcreated) hprinted
  refine ⟨items, hreply, hisItem, ?_⟩
  rw [refreshAlerts_list choice
    (fun r hr => (hrequested r hr).imp_left Listable.toTokenRow)
    hitems]
  refine congrArg (List.map AlertRecord.shown) ?_
  rw [AlertDB.requested, Table.select, Table.select, List.filter_filter, hasked]
  refine List.filter_congr fun r _ => ?_
  rw [ListChoice.views, Bool.and_comm]

/-- What the list shows of the stored alerts, when the QUERY goes through. -/
theorem listView_eq {w : World} {self : Session} {username : Field} {choice : ListChoice}
    (hrows : ∀ r ∈ w.db.alerts.rows, r.userId = self.userId →
      Listable r ∧ IsDateTime r.createdAt)
    (hself : 0 ≤ self.userId) (hname : splitLine username.val ≠ [])
    (hfits : (ClientCommand.query username choice.status).text.length ≤ recvBufSize) :
    listView w self username choice =
      some ((w.db.alerts.select (choice.views self username)).map AlertRecord.shown) := by
  obtain ⟨items, hreply, hisItem, hlist⟩ := run_dispatch_query choice hrows hself hname
  have hreplyLine : ∀ line ∈ items ++ [ascii "END"], ReplyLine line := by
    refine List.forall_mem_append.mpr
      ⟨fun line hline => (hisItem line hline).replyLine, ?_⟩
    exact List.forall_mem_singleton.mpr ⟨by decide, by decide⟩
  have hfuel :
      items.length < ((items ++ [ascii "END"]).flatMap serverSendLine).length := by
    refine lt_of_lt_of_le ?_ (length_le_sent _)
    rw [List.length_append]
    exact Nat.lt_succ_self _
  have hcollected :=
    collectReply_sent hreplyLine (fun line hline => (hisItem line hline).stops)
    (by decide) hfuel []
  unfold listView
  rw [(received_text_iff _).mpr hfits]
  dsimp only
  rw [hreply, hcollected, Option.map_some, List.nil_append, hlist]

/-! ## Logging in -/

/-- The window has logged in as `username` by the dialog, the LOGIN line has gone through
the receive buffer, and `self` is the session after it. -/
inductive SignedIn (username : Field) (self : Session) : Prop where
  | intro {rawUser rawPassword password : Field} (before : Session) (w : World)
      (haccepted : LoginDlg.onLogin rawUser rawPassword = .ok (.login username password))
      (hreceived : received (ClientCommand.login username password).text =
        [(ClientCommand.login username password).text])
      (hok : (run exec (dispatch before (ClientCommand.login username password).text) w).1
        =
        (self, ⟨[ascii "OK"], false⟩)) : SignedIn username self

theorem LoginDlg.onLogin_ok {rawUser rawPassword user password : Field}
    (h : LoginDlg.onLogin rawUser rawPassword = .ok (.login user password)) :
    user = trim rawUser ∧ user.val ≠ [] ∧ password = trim rawPassword ∧
    password.val ≠ [] := by
  unfold LoginDlg.onLogin at h
  dsimp only at h
  split at h
  · cases h
  · rename_i hne
    obtain ⟨rfl, rfl⟩ := ClientCommand.login.inj (Except.ok.inj h)
    exact ⟨rfl, (not_or.mp hne).1, rfl, (not_or.mp hne).2⟩

theorem trim_last {s : Field} : ∀ b ∈ (trim s).val.getLast?, isSpace b = false := by
  intro b hb
  have hne : (trim s).val ≠ [] := by
    intro hnil
    rw [hnil] at hb
    cases hb
  have hlast := List.rdropWhile_last_not isSpace _ hne
  rw [Option.mem_def, List.getLast?_eq_getLast_of_ne_nil hne, Option.some_inj] at hb
  rw [← hb]
  exact Bool.eq_false_iff.mpr hlast

theorem splitLine_trim {s : Field} (h : (trim s).val ≠ []) :
    splitLine (trim s).val ≠ [] := by
  obtain ⟨b, t, ht⟩ := List.exists_cons_of_ne_nil h
  have hhead : b ∈ (trim s).val.head? := by
    rw [ht]
    rfl
  exact splitLine_ne_nil (List.mem_of_mem_head? hhead) (trim_head b hhead)

theorem splitLine_trim_two {s : Field} (h : ¬ NoSpace (trim s).val) :
    ∃ user word rest, splitLine (trim s).val = user :: word :: rest := by
  unfold NoSpace at h
  push Not at h
  obtain ⟨b, hb, hspace⟩ := h
  have hspace := Bool.ne_false_iff.mp hspace
  obtain ⟨x, y, hxy⟩ := List.append_of_mem hb
  have hx : splitLine x ≠ [] := by
    cases x with
    | nil =>
        have hfront := trim_head b (by rw [hxy]; rfl)
        exact absurd hspace (Bool.eq_false_iff.mp hfront)
    | cons c x =>
        exact splitLine_ne_nil List.mem_cons_self (trim_head c (by rw [hxy]; rfl))
  have hy : splitLine y ≠ [] := by
    have hback : ∀ c ∈ (b :: y).getLast?, isSpace c = false := fun c hc =>
      trim_last c (by rw [hxy]; exact List.mem_getLast?_append_of_mem_getLast? hc)
    cases y with
    | nil => exact absurd hspace (Bool.eq_false_iff.mp (hback b rfl))
    | cons d y =>
        have hne : d :: y ≠ [] := List.cons_ne_nil d y
        refine splitLine_ne_nil (List.getLast_mem hne) (hback _ ?_)
        rw [List.getLast?_cons_cons, List.getLast?_eq_getLast_of_ne_nil hne]
        rfl
  rw [hxy, splitLine_append hspace]
  obtain ⟨user, more, hmore⟩ := List.exists_cons_of_ne_nil hx
  obtain ⟨word, rest, hrest⟩ := List.exists_cons_of_ne_nil hy
  rw [hmore, hrest]
  cases more with
  | nil => exact ⟨user, word, rest, rfl⟩
  | cons word' more => exact ⟨user, word', _, rfl⟩

section

variable {w : World} {self : Session} {username : Field}

/-- What the session and the name are after a login; the QUERY lines are at most one byte
too long for the buffer. -/
theorem SignedIn.facts (h : SignedIn username self) :
    0 ≤ self.userId ∧ (∃ raw, username = trim raw ∧ username.val ≠ []) ∧
      (ClientCommand.query username (-1)).text.length ≤ recvBufSize + 1 := by
  obtain @⟨rawUser, rawPassword, password, before, w, haccepted, hreceived, hok⟩ := h
  obtain ⟨rfl, huser, rfl, hpassword⟩ := LoginDlg.onLogin_ok haccepted
  let c := ClientCommand.login (trim rawUser) (trim rawPassword)
  refine ⟨?_, ⟨rawUser, rfl, huser⟩, ?_⟩
  · obtain ⟨u, more, hu⟩ := List.exists_cons_of_ne_nil (splitLine_trim huser)
    obtain ⟨p, rest, hp⟩ := List.exists_cons_of_ne_nil (splitLine_trim hpassword)
    have hword : IsToken (ascii "LOGIN") := by decide
    have htokens : splitLine c.text = ascii "LOGIN" :: (u :: more ++ p :: rest) := by
      rw [ClientCommand.text, ClientCommand.word, ClientCommand.arguments,
        unwords_cons_cons, unwords_cons_cons, unwords_singleton,
        splitLine_token_append hword, splitLine_append (by decide), hu, hp]
    obtain ⟨p', rest', htokens⟩ : ∃ p' rest', splitLine c.text =
        ascii "LOGIN" :: u :: p' :: rest' := by
      cases more with
      | nil => exact ⟨p, rest, htokens⟩
      | cons p' more => exact ⟨p', _, htokens⟩
    rw [dispatch_login (ClientCommand.commandWord_text _), run_handleLogin htokens] at hok
    split at hok
    · exact absurd (Prod.mk.inj hok).2 (by decide)
    · rename_i huid
      obtain ⟨rfl, -⟩ := Prod.mk.inj hok
      exact not_lt.mp huid
  · have hlength := (received_text_iff c).mp hreceived
    have hone := List.length_pos_of_ne_nil hpassword
    have hminus : (fmtInt (-1)).length = 2 := by decide
    simp only [c, ClientCommand.text, ClientCommand.word, ClientCommand.arguments,
      unwords_cons_cons, unwords_singleton, List.length_append, List.length_cons,
      hminus] at hlength ⊢
    have hlogin : (ascii "LOGIN").length = 5 := by decide
    have hquery : (ascii "QUERY").length = 5 := by decide
    omega

theorem query_length_le (choice : ListChoice) :
    (ClientCommand.query username choice.status).text.length ≤
      (ClientCommand.query username (-1)).text.length := by
  have hstatus : (fmtInt choice.status).length ≤ (fmtInt (-1)).length := by
    unfold ListChoice.status
    repeat' split
    all_goals decide
  simp only [ClientCommand.text, ClientCommand.word, ClientCommand.arguments,
    unwords_cons_cons, unwords_singleton, List.length_append, List.length_cons]
  omega

/-! ## The law -/

/-- The view shows each alert of the user with `p` once, in the order of the ids, and no
other alert. -/
def ShowsAll (w : World) (self : Session) (p : AlertRecord → Prop)
    (view : Option (List AlertRow)) : Prop :=
  ∃ rs : List AlertRecord, view = some (rs.map AlertRecord.shown) ∧
    rs.Pairwise (fun r r' => r.id < r'.id) ∧
    ∀ r, r ∈ rs ↔ r ∈ w.db.alerts.rows ∧ r.userId = self.userId ∧ p r

/-- The views partition the alerts of the user. -/
structure ListViews (w : World) (session : Session) (username : Field) : Prop where
  all : ∀ sel, sel ≠ 1 → sel ≠ 2 →
    ShowsAll w session (fun r => r.status ≠ 2) (listView w session username ⟨false, sel⟩)
  pending :
    ShowsAll w session (fun r => r.status = 0) (listView w session username ⟨false, 1⟩)
  triggered :
    ShowsAll w session (fun r => r.status = 1) (listView w session username ⟨false, 2⟩)
  deleted : ∀ sel,
    ShowsAll w session (fun r => r.status = 2) (listView w session username ⟨true, sel⟩)
  together : ∃ all pending triggered,
    listView w session username ⟨false, 0⟩ = some all ∧
    listView w session username ⟨false, 1⟩ = some pending ∧
    listView w session username ⟨false, 2⟩ = some triggered ∧
    all.Perm (pending ++ triggered)

theorem AlertRecord.id_of_shown {r r' : AlertRecord} (h : r.shown = r'.shown) :
    r.id = r'.id := by
  have hid : cstr (fmtInt r.id) = cstr (fmtInt r'.id) := congrArg AlertRow.id h
  have hval := congrArg Subtype.val hid
  rw [cstr_of_plain (plain_fmtInt _), cstr_of_plain (plain_fmtInt _)] at hval
  exact fmtInt_injective hval

/-- A selection is the view of `p` if it selects by `p` and the user. -/
theorem showsAll_select_iff {q : AlertRecord → Bool} {p : AlertRecord → Prop} :
    ShowsAll w self p (some ((w.db.alerts.select q).map AlertRecord.shown)) ↔
      ∀ r ∈ w.db.alerts.rows, q r ↔ r.userId = self.userId ∧ p r := by
  have hrow : ∀ {r r' : AlertRecord}, r ∈ w.db.alerts.rows → r' ∈ w.db.alerts.rows →
      r'.shown = r.shown → r' = r := fun hr hr' hshown =>
    w.db.alerts.eq_of_key hr' hr (AlertRecord.id_of_shown hshown)
  constructor
  · rintro ⟨rs, hview, -, hrs⟩ r hr
    have hview := Option.some.inj hview
    constructor
    · intro hq
      have hmem : r.shown ∈ rs.map AlertRecord.shown := by
        rw [← hview]
        exact List.mem_map_of_mem ((Table.mem_select _).mpr ⟨hr, hq⟩)
      obtain ⟨r', hr', hshown⟩ := List.mem_map.mp hmem
      obtain rfl := hrow hr ((hrs r').mp hr').1 hshown
      exact ((hrs r').mp hr').2
    · intro hp
      have hmem : r.shown ∈ (w.db.alerts.select q).map AlertRecord.shown := by
        rw [hview]
        exact List.mem_map_of_mem ((hrs r).mpr ⟨hr, hp⟩)
      obtain ⟨r', hr', hshown⟩ := List.mem_map.mp hmem
      obtain ⟨hr', hq⟩ := (Table.mem_select _).mp hr'
      obtain rfl := hrow hr hr' hshown
      exact hq
  · intro h
    refine ⟨_, rfl, w.db.alerts.sorted.filter q, fun r => ?_⟩
    rw [Table.mem_select]
    exact and_congr_right fun hr => h r hr

/-- The pending and the triggered alerts are together those that are not deleted. -/
theorem ShowsAll.together (hstored : ∀ r ∈ w.db.alerts.rows, StoredRow r)
    {all pending triggered : Option (List AlertRow)}
    (hall : ShowsAll w self (fun r => r.status ≠ 2) all)
    (hpending : ShowsAll w self (fun r => r.status = 0) pending)
    (htriggered : ShowsAll w self (fun r => r.status = 1) triggered) :
    ∃ rows rows₀ rows₁, all = some rows ∧ pending = some rows₀ ∧ triggered = some rows₁ ∧
      rows.Perm (rows₀ ++ rows₁) := by
  obtain ⟨rs, rfl, hsorted, hrs⟩ := hall
  obtain ⟨rs₀, rfl, hsorted₀, hrs₀⟩ := hpending
  obtain ⟨rs₁, rfl, hsorted₁, hrs₁⟩ := htriggered
  have hnodup :
      ∀ {rs : List AlertRecord}, rs.Pairwise (fun r r' => r.id < r'.id) → rs.Nodup :=
    fun h => h.imp fun {r r'} hlt heq => absurd hlt (by rw [heq]; exact lt_irrefl _)
  have hdisjoint : rs₀.Disjoint rs₁ := fun r hr₀ hr₁ => by
    have hpending := ((hrs₀ r).mp hr₀).2.2
    have htriggered := ((hrs₁ r).mp hr₁).2.2
    omega
  have hperm : rs.Perm (rs₀ ++ rs₁) := by
    refine (List.perm_ext_iff_of_nodup (hnodup hsorted)
      ((hnodup hsorted₀).append (hnodup hsorted₁) hdisjoint)).mpr fun r => ?_
    rw [List.mem_append, hrs, hrs₀, hrs₁]
    constructor
    · rintro ⟨hr, howner, hlive⟩
      rcases (hstored r hr).status with h | h | h
      · exact .inl ⟨hr, howner, h⟩
      · exact .inr ⟨hr, howner, h⟩
      · exact absurd h hlive
    · rintro (⟨hr, howner, h⟩ | ⟨hr, howner, h⟩)
      · exact ⟨hr, howner, by omega⟩
      · exact ⟨hr, howner, by omega⟩
  refine ⟨_, _, _, rfl, rfl, rfl, ?_⟩
  rw [← List.map_append]
  exact hperm.map _

/-- A name of one word leaves the status to ask for as it is. -/
theorem askedStatus_of_noSpace {u : Bytes} (hne : u ≠ []) (h : NoSpace u) (status : ℤ) :
    askedStatus u status = status := by
  rw [askedStatus, splitLine_token ⟨hne, h⟩]

/-- A name of more words puts its second one in the place of the status. -/
theorem askedStatus_of_space {s : Field} (h : ¬ NoSpace (trim s).val) (status : ℤ) :
    askedStatus (trim s).val status = askedStatus (trim s).val (-1) := by
  obtain ⟨user, word, rest, hwords⟩ := splitLine_trim_two h
  rw [askedStatus, askedStatus, hwords]

theorem ListChoice.views_iff {choice : ListChoice} {u : Bytes} {r : AlertRecord} :
    choice.views self u r ↔ r.userId = self.userId ∧
      (askedStatus u choice.status = -1 ∨ r.status = askedStatus u choice.status) ∧
      (choice.showDeletedOnly = true ∨ r.status ≠ 2) := by
  rw [ListChoice.views, ListChoice.shows, Bool.and_eq_true, Bool.or_eq_true,
    decide_eq_true_iff, decide_eq_true_iff, and_assoc]

/-- A view shows the alerts with `p` exactly if what it asks for and leaves out agrees
with `p` on the alerts of the user. -/
theorem showsAll_listView_iff (hstored : w.db.Stored)
    (hlistable : ∀ r ∈ w.db.alerts.rows, Listable r) (hself : 0 ≤ self.userId)
    (hname : splitLine username.val ≠ [])
    (hfits : (ClientCommand.query username (-1)).text.length ≤ recvBufSize)
    (choice : ListChoice) (p : AlertRecord → Prop) :
    ShowsAll w self p (listView w self username choice) ↔
      ∀ r ∈ w.db.alerts.rows, r.userId = self.userId →
        ((askedStatus username choice.status = -1 ∨
            r.status = askedStatus username choice.status) ∧
          (choice.showDeletedOnly = true ∨ r.status ≠ 2) ↔ p r) := by
  have hrows :=
    listable_stored hstored fun r hr (_ : r.userId = self.userId) => hlistable r hr
  rw [listView_eq hrows hself hname ((query_length_le choice).trans hfits)]
  refine showsAll_select_iff.trans (forall₂_congr fun r _ => ?_)
  rw [ListChoice.views_iff]
  exact and_congr_right_iff

/-- The views partition the alerts if each is right about the stored alerts when it asks
for its own status, and about deleted alerts whatever it asks for. -/
theorem ListViews.of_shows (hstored : ∀ r ∈ w.db.alerts.rows, StoredRow r)
    (hshows : ∀ (choice : ListChoice) (p : AlertRecord → Prop),
      (∀ r, StoredRow r → ((choice.status = -1 ∨ r.status = choice.status) ∧
        (choice.showDeletedOnly = true ∨ r.status ≠ 2) ↔ p r)) →
      (∀ r, r.status = 2 → (choice.showDeletedOnly = true ↔ p r)) →
      ShowsAll w self p (listView w self username choice)) :
    ListViews w self username := by
  have hall : ∀ sel, sel ≠ 1 → sel ≠ 2 → ShowsAll w self (fun r => r.status ≠ 2)
      (listView w self username ⟨false, sel⟩) := by
    intro sel h₁ h₂
    have hstatus : ListChoice.status ⟨false, sel⟩ = -1 := (if_neg h₁).trans (if_neg h₂)
    refine hshows _ _ (fun r hr => ?_) fun r hr => ?_
    · simp [hstatus]
    · simp [hr]
  have hpending : ShowsAll w self (fun r => r.status = 0)
      (listView w self username ⟨false, 1⟩) := by
    refine hshows _ _ (fun r hr => ?_) fun r hr => ?_
    · have hstatus : ListChoice.status ⟨false, 1⟩ = 0 := rfl
      simp only [hstatus, Bool.false_eq_true, false_or]
      omega
    · simp [hr]
  have htriggered : ShowsAll w self (fun r => r.status = 1)
      (listView w self username ⟨false, 2⟩) := by
    refine hshows _ _ (fun r hr => ?_) fun r hr => ?_
    · have hstatus : ListChoice.status ⟨false, 2⟩ = 1 := rfl
      simp only [hstatus, Bool.false_eq_true, false_or]
      omega
    · simp [hr]
  have hdeleted : ∀ sel, ShowsAll w self (fun r => r.status = 2)
      (listView w self username ⟨true, sel⟩) := by
    intro sel
    refine hshows _ _ (fun r hr => ?_) fun r hr => ?_
    · have hstatus : ListChoice.status ⟨true, sel⟩ = 2 := rfl
      simp [hstatus]
    · simp [hr]
  exact
    { all := hall
      pending := hpending
      triggered := htriggered
      deleted := hdeleted
      together := ShowsAll.together hstored (hall 0 (by decide) (by decide))
        hpending htriggered }

/-- The views of stored alerts partition the alerts of the user exactly if the QUERY line
goes through the receive buffer and the name is one word, or all alerts of the user are
deleted and the second word of the name asks for them. -/
theorem listViews_iff (hstored : w.db.Stored)
    (hlistable : ∀ r ∈ w.db.alerts.rows, Listable r) (hlogin : SignedIn username self) :
    ListViews w self username ↔
      (ClientCommand.query username (-1)).text.length ≤ recvBufSize ∧
        (NoSpace username ∨ ∀ r ∈ w.db.alerts.rows, r.userId = self.userId →
          r.status = 2 ∧
            (askedStatus username (-1) = -1 ∨ askedStatus username (-1) = 2)) := by
  obtain ⟨hself, ⟨raw, rfl, hne⟩, hlength⟩ := hlogin.facts
  by_cases hfits : (ClientCommand.query (trim raw) (-1)).text.length ≤ recvBufSize
  · rw [and_iff_right hfits]
    have hview := showsAll_listView_iff hstored hlistable hself (splitLine_trim hne) hfits
    constructor
    · intro h
      refine or_iff_not_imp_left.mpr fun hspace r hr howner => ?_
      have hall := (hview ⟨false, 0⟩ _).mp (h.all 0 (by decide) (by decide)) r hr howner
      have hpending := (hview ⟨false, 1⟩ _).mp h.pending r hr howner
      have htriggered := (hview ⟨false, 2⟩ _).mp h.triggered r hr howner
      have hdeleted := (hview ⟨true, 0⟩ _).mp (h.deleted 0) r hr howner
      simp only [askedStatus_of_space hspace, Bool.false_eq_true, false_or,
        true_or, and_true]
        at hall hpending htriggered hdeleted ⊢
      omega
    · intro hasked
      refine ListViews.of_shows hstored.storedRow fun choice p hword hgone => ?_
      refine (hview choice p).mpr fun r hr howner => ?_
      by_cases hspace : NoSpace (trim raw)
      · rw [askedStatus_of_noSpace hne hspace]
        exact hword r (hstored.storedRow r hr)
      · obtain ⟨hdeleted, hboth⟩ := hasked.resolve_left hspace r hr howner
        rw [askedStatus_of_space hspace, ← hgone r hdeleted, hdeleted]
        refine (and_iff_right (hboth.imp_right Eq.symm)).trans ?_
        exact or_iff_left (not_not.mpr rfl)
  · refine iff_of_false (fun h => ?_) fun h => hfits h.1
    have hlong := le_antisymm hlength (Nat.lt_of_not_le hfits)
    have hstatus : ListChoice.status ⟨false, 0⟩ = -1 := rfl
    have hnone : listView w self (trim raw) ⟨false, 0⟩ = none := by
      rw [listView, hstatus, received_text_nil hlong]
    obtain ⟨rs, hrs, -⟩ := h.all 0 (by decide) (by decide)
    rw [hnone] at hrs
    cases hrs

end

/-! ## A name of two words -/

/-- ann has registered with the password `x`, and has one pending alert. -/
def annStored : World :=
  (exec (.addPriceAlert 1 (ascii "rb2510") 3500 condGE)
    (exec (.registerUser (ascii "ann") (ascii "x") (ascii "a@b")) quietServer.world).2).2

theorem annStored_stored : annStored.db.Stored := by
  have hnew : quietServer.world.db.Stored := .created
  have hregistered :=
    hnew.call .none (.registerUser (ascii "ann") (ascii "x") (ascii "a@b")) trivial
  exact hregistered.call .none (.addPriceAlert 1 (ascii "rb2510") 3500 condGE) (.inl rfl)

theorem annStored_rows : annStored.db.alerts.rows =
    [AlertDB.priceRow 1 (ascii "rb2510") 3500 condGE
      (quietServer.world.clock 0).stamp 1] := by
  decide +kernel

theorem annStored_listable : ∀ r ∈ annStored.db.alerts.rows, Listable r := by
  rw [annStored_rows]
  refine List.forall_mem_singleton.mpr ⟨⟨?_, .inl rfl⟩, ?_⟩
  · decide
  · decide +kernel

/-- The session of ann. -/
def annSession : Session := ⟨7, 1, ascii "ann"⟩

/-- The name of the account and the password, typed into the field for the name. -/
def twoWords : Field := ⟨ascii "ann x", by decide⟩

theorem signedIn_annName : SignedIn annName annSession := by
  have haccepted : LoginDlg.onLogin annName ⟨ascii "x", by decide⟩ =
      .ok (.login annName ⟨ascii "x", by decide⟩) := by decide
  refine .intro (.new 7) annStored haccepted ?_ ?_
  · exact (received_text_iff _).mpr (by decide)
  · decide +kernel

/-- The server takes the second word for the password. -/
theorem signedIn_twoWords : SignedIn twoWords annSession := by
  have haccepted : LoginDlg.onLogin twoWords ⟨ascii "y", by decide⟩ =
      .ok (.login twoWords ⟨ascii "y", by decide⟩) := by decide
  refine .intro (.new 7) annStored haccepted ?_ ?_
  · exact (received_text_iff _).mpr (by decide)
  · decide +kernel

theorem listViews_of_one_word : ListViews annStored annSession annName :=
  (listViews_iff annStored_stored annStored_listable signedIn_annName).mpr
    ⟨by decide, .inl (by decide)⟩

/-- With the name `ann x` the pending alert is listed as a triggered one. -/
theorem pending_shows_as_triggered :
    ¬ ∀ (w : World) (self : Session) (username : Field), w.db.Stored →
      (∀ r ∈ w.db.alerts.rows, Listable r) → SignedIn username self →
      ListViews w self username := by
  intro hall
  obtain ⟨rs, hview, -, hrs⟩ := (hall annStored annSession twoWords annStored_stored
    annStored_listable signedIn_twoWords).triggered
  have hone : (listView annStored annSession twoWords ⟨false, 2⟩).map
      List.length = some 1 := by
    decide +kernel
  rw [hview, Option.map_some, List.length_map] at hone
  obtain ⟨r, hr⟩ := List.exists_mem_of_length_pos (by rw [Option.some.inj hone]; decide)
  obtain ⟨hstored, -, htriggered⟩ := (hrs r).mp hr
  rw [annStored_rows] at hstored
  obtain rfl := List.mem_singleton.mp hstored
  exact absurd htriggered (by decide)

end CloudAlert
