import Mathlib.Data.List.DropRight
import CloudAlert.Client.MainFrame
import CloudAlert.Client.Validate
import CloudAlert.Session.Truthful

/-!
# The dialogs

The dialogs trim what was typed, check it and put it into a command between single spaces;
the session receives the line in its buffer and takes it apart at white space. What was
typed arrives exactly if no field has white space inside and the lines fit the buffer
(`fieldsKept_iff`). The check of the contract admits no white space, and neither do those
of the price and of the time; the dialogs for the account look for empty fields and for an
`@` only. No dialog looks at a length.
-/

namespace CloudAlert

open Program

/-! ## Forms -/

/-- `CString::Trim`. -/
def trim (s : Field) : Field :=
  ⟨(s.val.dropWhile isSpace).rdropWhile isSpace, fun b hb =>
    s.property b
      ((List.dropWhile_sublist _).subset ((List.rdropWhile_prefix _ _).subset hb))⟩

/-- `CRegisterDlg::OnSubmit`, up to the command. -/
def RegisterDlg.onSubmit (user password confirm email : Field) :
    Except String ClientCommand :=
  let user := trim user
  let password := trim password
  let confirm := trim confirm
  let email := trim email
  if user.val = [] ∨ password.val = [] ∨ confirm.val = [] ∨ email.val = [] then
    .error "All fields are required."
  else if password ≠ confirm then .error "Passwords do not match."
  else if 64 ∉ email.val then .error "Please enter a valid email address."
  else .ok (.register user password email)

/-- `CLoginDlg::OnLogin`, up to the command. -/
def LoginDlg.onLogin (user password : Field) : Except String ClientCommand :=
  let user := trim user
  let password := trim password
  if user.val = [] ∨ password.val = [] then .error "Username and password are required."
  else .ok (.login user password)

/-- `CChangeEmailDlg::OnSubmit`, up to the command. -/
def ChangeEmailDlg.onSubmit (username password email : Field) :
    Except String ClientCommand :=
  let password := trim password
  let email := trim email
  if password.val = [] ∨ email.val = [] then .error "Password and new email are required."
  else if 64 ∉ email.val then .error "Please enter a valid email address."
  else if username.val = [] then .error "Please login first."
  else .ok (.setEmail username password email)

/-- The fields of the editor; the selection of a combo box is -1 if there is none. -/
structure Editor where
  contract : Field
  price : Field
  timeText : Field
  typeSel : ℤ
  condSel : ℤ

/-- `CMainFrame::GetSelectedAlertType`. -/
def Editor.selectedAlertType (form : Editor) : ℤ :=
  if form.typeSel = 1 then alertTypeTime else alertTypePrice

/-- `CMainFrame::OnAddPrice`, up to the command. -/
def onAddPrice (username : Field) (form : Editor) : Except String ClientCommand := do
  let contract := trim form.contract
  let price := trim form.price
  let timeText := trim form.timeText
  validateContract contract
  if form.selectedAlertType = alertTypePrice then do
    validatePrice price
    return .addPrice username contract price (max 0 form.condSel)
  else do
    validateTimeText timeText
    return .addTime username contract timeText

/-! ## Fields -/

theorem except_bind_ok {α β : Type} {x : Except String α}
    {f : α → Except String β} {b : β}
    (h : (x >>= f) = .ok b) : ∃ a, x = .ok a ∧ f a = .ok b := by
  cases x with
  | error => cases h
  | ok a => exact ⟨a, rfl, h⟩

theorem trim_head {s : Field} : ∀ b ∈ (trim s).val.head?, isSpace b = false := by
  intro b hb
  obtain ⟨t, ht⟩ := List.rdropWhile_prefix isSpace (s.val.dropWhile isSpace)
  have hhead : (s.val.dropWhile isSpace).head? = some b := by
    rw [← ht]
    exact List.mem_head?_append_of_mem_head? hb
  have hfirst := List.head?_dropWhile_not isSpace s.val
  rw [hhead] at hfirst
  exact hfirst

/-- A price that is accepted is a token: `strtod` has read all of it. -/
theorem isToken_of_validatePrice {s : Field} (h : validatePrice (trim s).val = .ok ()) :
    IsToken (trim s).val := by
  have hplain := cstr_of_plain (trim s).property
  unfold validatePrice at h
  split at h
  · cases h
  · rename_i hne
    dsimp only at h
    split at h
    · cases h
    · rename_i hread
      simp only [not_or, not_not] at hread
      refine ⟨hne, ?_⟩
      have hspace := noSpace_of_strtod (hplain.symm ▸ trim_head) hread.2.1
      rwa [hplain] at hspace

/-! ## The law -/

/-- The session takes the command word and the fields from what it receives. -/
def Kept (c : ClientCommand) : Prop :=
  (received c.text).map splitLine = [c.word :: c.arguments]

instance (c : ClientCommand) : Decidable (Kept c) := inferInstanceAs (Decidable (_ = _))

theorem kept_iff (c : ClientCommand) :
    Kept c ↔ (∀ field ∈ c.arguments, IsToken field) ∧ c.text.length ≤ recvBufSize :=
  tokens_received_iff c

theorem Kept.received_eq {c : ClientCommand} (h : Kept c) : received c.text = [c.text] :=
  (received_text_iff c).mpr ((kept_iff c).mp h).2

theorem Kept.splitLine_eq {c : ClientCommand} (h : Kept c) :
    splitLine c.text = c.word :: c.arguments :=
  ClientCommand.splitLine_text ((kept_iff c).mp h).1

/-- A dialog for the account accepts what is typed and sends the command. -/
inductive Accepted : ClientCommand → Prop where
  | register {user password confirm email : Field} {c : ClientCommand}
      (h : RegisterDlg.onSubmit user password confirm email = .ok c) : Accepted c
  | login {user password : Field} {c : ClientCommand}
      (h : LoginDlg.onLogin user password = .ok c) : Accepted c
  | setEmail {username password email : Field} {c : ClientCommand}
      (h : ChangeEmailDlg.onSubmit username password email = .ok c) : Accepted c

/-- No field of an accepted command is empty. -/
theorem Accepted.ne_nil {c : ClientCommand} (h : Accepted c) :
    ∀ field ∈ c.arguments, field ≠ [] := by
  cases h with
  | register h =>
      unfold RegisterDlg.onSubmit at h
      dsimp only at h
      split at h
      · cases h
      · rename_i hne
        split at h
        · cases h
        · split at h
          · cases h
          · obtain rfl := Except.ok.inj h
            simp only [not_or] at hne
            simp only [ClientCommand.arguments, List.forall_mem_cons]
            exact ⟨hne.1, hne.2.1, hne.2.2.2, List.forall_mem_nil _⟩
  | login h =>
      unfold LoginDlg.onLogin at h
      dsimp only at h
      split at h
      · cases h
      · rename_i hne
        obtain rfl := Except.ok.inj h
        simp only [not_or] at hne
        simp only [ClientCommand.arguments, List.forall_mem_cons]
        exact ⟨hne.1, hne.2, List.forall_mem_nil _⟩
  | setEmail h =>
      unfold ChangeEmailDlg.onSubmit at h
      dsimp only at h
      split at h
      · cases h
      · rename_i hne
        split at h
        · cases h
        · split at h
          · cases h
          · rename_i huser
            obtain rfl := Except.ok.inj h
            simp only [not_or] at hne
            simp only [ClientCommand.arguments, List.forall_mem_cons]
            exact ⟨huser, hne.1, hne.2, List.forall_mem_nil _⟩

theorem Accepted.tokens_iff {c : ClientCommand} (h : Accepted c) :
    (∀ field ∈ c.arguments, IsToken field) ↔ ∀ field ∈ c.arguments, NoSpace field :=
  forall₂_congr fun field hfield => and_iff_right (h.ne_nil field hfield)

/-- What the session answers to the command. -/
def answer (self : Session) (c : ClientCommand) (s : FaultyWorld) :
    (Session × Reply) × FaultyWorld :=
  match received c.text with
  | line :: _ => run execFaulty (dispatch self line) s
  | [] => ((self, ⟨[], false⟩), s)

theorem answer_of_kept {c : ClientCommand} (h : Kept c) (self : Session)
    (s : FaultyWorld) : answer self c s = run execFaulty (dispatch self c.text) s := by
  rw [answer, h.received_eq]

/-- The length of the line that the editor's fields make. -/
def Editor.width (username : Field) (form : Editor) : ℕ :=
  if form.selectedAlertType = alertTypePrice then
    13 + username.val.length + (trim form.contract).val.length +
      (trim form.price).val.length + (fmtInt (max 0 form.condSel)).length
  else
    11 + username.val.length + (trim form.contract).val.length +
      (trim form.timeText).val.length

/-- What the dialogs take for the account, and the editor for an alert of it, reaches the
server as it is. -/
structure FieldsKept (session : Session) (s : FaultyWorld) (user password email : Field)
    (form : Editor) : Prop where
  register : Kept (.register user password email)
  stored : ∀ resp ∈ (answer session (.register user password email) s).1.2.lines,
    ascii "OK" <+: resp →
      ∃ r ∈ (answer session (.register user password email) s).2.world.db.users.rows,
        r.username.val = user ∧ r.password.val = password ∧ r.email.val = email
  login : Kept (.login user password)
  loggedIn : ∀ resp ∈ (answer session (.login user password) s).1.2.lines,
    ascii "OK" <+: resp →
      ∃ r ∈ s.world.db.users.rows, r.username.val = user ∧ r.password.val = password ∧
        r.id = (answer session (.login user password) s).1.1.userId
  setEmail : Kept (.setEmail user password email)
  added : ∀ c, onAddPrice user form = .ok c → Kept c

/-- `RegisterUser` completes an account, and its UPDATE fails unnoticed. -/
def LosesUpdate (s : FaultyWorld) (user : Bytes) : Prop :=
  s.world.db.Completes (s.sql 0) user ∧ (s.sql 0).step 1 = true

variable {self : Session} {s : FaultyWorld} {user password email : Field} {form : Editor}

theorem stored_iff (hkept : Kept (.register user password email)) :
    (∀ resp ∈ (answer self (.register user password email) s).1.2.lines,
      ascii "OK" <+: resp →
        ∃ r ∈ (answer self (.register user password email) s).2.world.db.users.rows,
          r.username.val = user ∧ r.password.val = password ∧ r.email.val = email) ↔
      ¬ LosesUpdate s user := by
  let c := ClientCommand.register user password email
  have hword : commandWord c.text = ascii "REGISTER" := c.commandWord_text
  have hsplit : splitLine c.text = [ascii "REGISTER", user, password, email] :=
    hkept.splitLine_eq
  have hmisreports : Misreports self c.text s.world.db s.sql ↔ LosesUpdate s user := by
    have hnul : ∀ field : Field, 0 ∉ field.val :=
      fun field h => (field.property 0 h).1 rfl
    rw [Misreports, if_pos hword, hsplit]
    change _ ∨ _ ∧ (_ ∨ _ ∨ _) ↔ _
    simp only [hnul, or_self, and_false, or_false]
    rfl
  have hpromised : ∀ resp db, Promised self c.text resp db ↔
      ∃ r ∈ db.users.rows,
        r.username.val = user ∧ r.password.val = password ∧ r.email.val = email := by
    intro resp db
    rw [Promised, if_pos hword, hsplit]
  have htruthful := handleRegister_truthful self s hword
  rw [hmisreports, ← dispatch_register hword] at htruthful
  rw [answer_of_kept hkept]
  refine Iff.trans ?_ htruthful
  constructor
  · rintro hstored lines db ⟨rfl, rfl⟩
    refine ⟨fun resp hresp hok => (hpromised resp _).mpr (hstored resp hresp hok), ?_⟩
    rw [Listed, if_neg (by rw [hword]; decide)]
    trivial
  · intro h resp hresp hok
    exact (hpromised resp _).mp ((h _ _ ⟨rfl, rfl⟩).1 resp hresp hok)

/-- LOGIN is accepted for the account with this password only. -/
theorem loggedIn_of_kept (hkept : Kept (.login user password)) :
    ∀ resp ∈ (answer self (.login user password) s).1.2.lines, ascii "OK" <+: resp →
      ∃ r ∈ s.world.db.users.rows, r.username.val = user ∧ r.password.val = password ∧
        r.id = (answer self (.login user password) s).1.1.userId := by
  let c := ClientCommand.login user password
  have hrun : answer self c s = run execFaulty
      (if s.world.db.verifyLogin (s.sql 0) user password < 0 then
        self.say "ERR wrong username or password"
      else do
        ask (.registerSocket (s.world.db.verifyLogin (s.sql 0) user password) self.sock)
        { self with userId := s.world.db.verifyLogin (s.sql 0) user password,
                    username := user }.say "OK")
      (execFaulty (.verifyLogin user password) s).2 := by
    rw [answer_of_kept hkept, dispatch_login c.commandWord_text, handleLogin,
      hkept.splitLine_eq]
    rfl
  intro resp hresp hok
  change ∃ r ∈ s.world.db.users.rows, _ ∧ _ ∧ r.id = (answer self c s).1.1.userId
  replace hresp : resp ∈ (answer self c s).1.2.lines := hresp
  rw [hrun] at hresp ⊢
  split at hresp
  · obtain rfl := List.mem_singleton.mp hresp
    exact absurd hok (by decide)
  · rename_i huid
    obtain ⟨r, hr, hname, hpassword, hid⟩ :=
      s.world.db.exists_of_verifyLogin_faulty (s.sql 0) (not_lt.mp huid)
    refine ⟨r, hr, ?_, hpassword, ?_⟩
    · rw [hname]
      exact cstr_of_plain user.property
    · rw [if_neg huid]
      exact hid

/-- The checks of the editor leave no white space in its fields, and its command is as
long as these make it. -/
theorem onAddPrice_ok {c : ClientCommand} (h : onAddPrice user form = .ok c) :
    (IsToken user.val → ∀ field ∈ c.arguments, IsToken field) ∧
      c.text.length = form.width user := by
  unfold onAddPrice at h
  obtain ⟨⟨⟩, hcontract, h⟩ := except_bind_ok h
  have hcontract := isToken_of_validateContract hcontract
  rw [ClientCommand.length_text, Editor.width]
  split at h
  · rename_i htype
    obtain ⟨⟨⟩, hprice, h⟩ := except_bind_ok h
    obtain rfl := Except.ok.inj h
    have hword : (ascii "ADD_PRICE").length = 9 := rfl
    rw [if_pos htype]
    simp only [ClientCommand.arguments, ClientCommand.word,
      List.forall_mem_cons, List.map_cons, List.map_nil, List.sum_cons,
      List.sum_nil, hword]
    refine ⟨fun huser => ⟨huser, hcontract, isToken_of_validatePrice hprice,
        isToken_fmtInt _,
      List.forall_mem_nil _⟩, by omega⟩
  · rename_i htype
    obtain ⟨⟨⟩, htime, h⟩ := except_bind_ok h
    obtain rfl := Except.ok.inj h
    have hword : (ascii "ADD_TIME").length = 8 := rfl
    rw [if_neg htype]
    simp only [ClientCommand.arguments, ClientCommand.word,
      List.forall_mem_cons, List.map_cons, List.map_nil, List.sum_cons,
      List.sum_nil, hword]
    refine ⟨fun huser => ⟨huser, hcontract, isToken_of_validateTimeText htime,
      List.forall_mem_nil _⟩, by omega⟩

theorem added_kept_iff (huser : IsToken user.val) :
    (∀ c, onAddPrice user form = .ok c → Kept c) ↔
      ((∃ c, onAddPrice user form = .ok c) → form.width user ≤ recvBufSize) := by
  constructor
  · rintro h ⟨c, hc⟩
    rw [← (onAddPrice_ok hc).2]
    exact ((kept_iff c).mp (h c hc)).2
  · intro h c hc
    obtain ⟨htokens, hlength⟩ := onAddPrice_ok hc
    exact (kept_iff c).mpr ⟨htokens huser, hlength ▸ h ⟨c, hc⟩⟩

theorem length_account (user password email : Field) :
    (ClientCommand.register user password email).text.length =
        11 + user.val.length + password.val.length + email.val.length ∧
      (ClientCommand.login user password).text.length =
        7 + user.val.length + password.val.length ∧
      (ClientCommand.setEmail user password email).text.length =
        12 + user.val.length + password.val.length + email.val.length := by
  have hregister : (ascii "REGISTER").length = 8 := rfl
  have hlogin : (ascii "LOGIN").length = 5 := rfl
  have hsetEmail : (ascii "SET_EMAIL").length = 9 := rfl
  simp only [ClientCommand.length_text, ClientCommand.word, ClientCommand.arguments,
    List.map_cons, List.map_nil, List.sum_cons, List.sum_nil, hregister,
    hlogin, hsetEmail]
  omega

/-- What is typed arrives exactly if no field of the account has white space inside, the
lines fit the receive buffer and the UPDATE that completes the account does not fail
unnoticed. The longest line of the account is that of SET_EMAIL. -/
theorem fieldsKept_iff {rawUser rawPassword rawConfirm rawEmail : Field}
    (h : RegisterDlg.onSubmit rawUser rawPassword rawConfirm rawEmail =
      .ok (.register user password email)) :
    FieldsKept self s user password email form ↔
      (NoSpace user ∧ NoSpace password ∧ NoSpace email) ∧
        12 + user.val.length + password.val.length + email.val.length ≤ recvBufSize ∧
        ((∃ c, onAddPrice user form = .ok c) → form.width user ≤ recvBufSize) ∧
        ¬ LosesUpdate s user := by
  have hfields : (∀ field ∈ [user.val, password.val, email.val], IsToken field) ↔
      NoSpace user ∧ NoSpace password ∧ NoSpace email := by
    refine (Accepted.register h).tokens_iff.trans ?_
    simp only [ClientCommand.arguments, List.forall_mem_cons,
      List.not_mem_nil, false_imp_iff, implies_true, and_true]
  obtain ⟨hregisterText, hloginText, hsetEmailText⟩ := length_account user password email
  constructor
  · intro hlaw
    obtain ⟨htokens, hfits⟩ := (kept_iff _).mp hlaw.setEmail
    exact ⟨hfields.mp htokens, hsetEmailText ▸ hfits,
      (added_kept_iff (htokens _ List.mem_cons_self)).mp hlaw.added,
      (stored_iff hlaw.register).mp hlaw.stored⟩
  · rintro ⟨hspace, hfits, hadded, hupdate⟩
    have htokens := hfields.mpr hspace
    have hregister : Kept (.register user password email) :=
      (kept_iff _).mpr ⟨htokens, by omega⟩
    have hlogin : Kept (.login user password) :=
      (kept_iff _).mpr
        ⟨fun field hfield =>
          htokens field (List.mem_append_left [email.val] hfield), by omega⟩
    exact
      { register := hregister
        stored := (stored_iff hregister).mpr hupdate
        login := hlogin
        loggedIn := loggedIn_of_kept hlogin
        setEmail := (kept_iff _).mpr ⟨htokens, hsetEmailText ▸ hfits⟩
        added := (added_kept_iff (htokens _ List.mem_cons_self)).mpr hadded }

instance (tok : Bytes) : Decidable (NoSpace tok) :=
  inferInstanceAs (Decidable (∀ b ∈ tok, isSpace b = false))

/-- A new server, and no failures. -/
def quietServer : FaultyWorld :=
  ⟨.fresh .created true fun _ => ⟨2025, 6, 0, 9, 30, 0⟩, fun _ => .none⟩

def typedUser : Field := ⟨ascii " ann ", by decide⟩

def typedEmail : Field := ⟨ascii "a@b", by decide⟩

/-- An alert when the price reaches 500. -/
def typedAlert : Editor where
  contract := ⟨ascii "au2512", by decide⟩
  price := ⟨ascii "500", by decide⟩
  timeText := ⟨[], by decide⟩
  typeSel := 0
  condSel := 0

/-- What is typed without white space inside arrives. -/
theorem fieldsKept_trimmed : FieldsKept ⟨7, -1, []⟩ quietServer ⟨ascii "ann", by decide⟩
    ⟨ascii "pw", by decide⟩ typedEmail typedAlert := by
  have haccepted : RegisterDlg.onSubmit typedUser ⟨ascii "pw", by decide⟩
      ⟨ascii "pw", by decide⟩ typedEmail = .ok (.register ⟨ascii "ann", by decide⟩
        ⟨ascii "pw", by decide⟩ typedEmail) := by decide
  refine (fieldsKept_iff haccepted).mpr ⟨?_, by decide, fun _ => by decide, fun h => ?_⟩
  · exact ⟨by decide, by decide, by decide⟩
  · exact absurd h.2 (by decide)

/-- A password of two words is accepted, and the server stores its second word as the
e-mail address. -/
theorem second_word_is_email :
    ¬ ∀ (self : Session) (s : FaultyWorld) (rawUser rawPassword rawConfirm rawEmail user
        password email : Field) (form : Editor),
      RegisterDlg.onSubmit rawUser rawPassword rawConfirm rawEmail =
        .ok (.register user password email) →
      FieldsKept self s user password email form := by
  intro hall
  have hlaw := hall ⟨7, -1, []⟩ quietServer typedUser ⟨ascii "my pw", by decide⟩
    ⟨ascii "my pw", by decide⟩ typedEmail ⟨ascii "ann", by decide⟩
    ⟨ascii "my pw", by decide⟩
    typedEmail typedAlert (by decide)
  exact absurd hlaw.register (by decide)

end CloudAlert
