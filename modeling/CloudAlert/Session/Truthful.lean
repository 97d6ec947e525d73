import CloudAlert.Server.Failures
import CloudAlert.Server.History
import CloudAlert.Session.Commands
import CloudAlert.Session.Replies

/-!
# What a reply promises

An OK says that the change the command asked for is in the tables (`Promised`), and END
says that the list before it is whole (`Listed`). Under failures of SQLite both can be
false. `RegisterUser` reports success without looking at the result of the UPDATE that
completes an account, a query that fails halfway ends like one that is through, and a
token is stored up to its first NUL byte. `Misreports` collects these inputs, and
`truthful_iff` says that there are no others.
-/

namespace CloudAlert

open Program

/-! ## The law -/

/-- What the OK line `resp` says of the tables. -/
def Promised (self : Session) (line resp : Bytes) (db : AlertDB) : Prop :=
  if commandWord line = ascii "REGISTER" then
    match splitLine line with
    | _ :: u :: p :: e :: _ =>
        ∃ r ∈ db.users.rows, r.username.val = u ∧ r.password.val = p ∧ r.email.val = e
    | _ => False
  else if commandWord line = ascii "SET_EMAIL" then
    match splitLine line with
    | _ :: _ :: _ :: e :: _ => ∃ r ∈ db.users.rows, r.id = self.userId ∧ r.email.val = e
    | _ => False
  else if commandWord line = ascii "ADD_PRICE" then
    match splitLine line with
    | _ :: _ :: c :: p :: cond :: _ =>
        ∃ r ∈ db.alerts.rows, resp = ascii "OK " ++ fmtInt r.id ∧ r.userId = self.userId ∧
          r.alertType = alertTypePrice ∧ r.status = 0 ∧ r.contract.val = c ∧
          r.triggerPrice = atof p ∧ r.condition = atoi cond
    | _ => False
  else if commandWord line = ascii "ADD_TIME" then
    match splitLine line with
    | _ :: _ :: c :: t :: _ =>
        ∃ r ∈ db.alerts.rows, resp = ascii "OK " ++ fmtInt r.id ∧ r.userId = self.userId ∧
          r.alertType = alertTypeTime ∧ r.status = 0 ∧ r.contract.val = c ∧
          r.triggerTime.val = t
    | _ => False
  else if commandWord line = ascii "DELETE" then
    match splitLine line with
    | _ :: alertId :: _ =>
        ∃ r ∈ db.alerts.rows, r.id = atoi alertId ∧ r.userId = self.userId ∧ r.status = 2
    | _ => False
  else if commandWord line = ascii "MODIFY_PRICE" then
    match splitLine line with
    | _ :: alertId :: c :: p :: cond :: _ =>
        ∃ r ∈ db.alerts.rows, r.id = atoi alertId ∧ r.userId = self.userId ∧
          r.alertType = alertTypePrice ∧ r.status = 0 ∧ r.contract.val = c ∧
          r.triggerPrice = atof p ∧ r.condition = atoi cond
    | _ => False
  else if commandWord line = ascii "MODIFY_TIME" then
    match splitLine line with
    | _ :: alertId :: c :: t :: _ =>
        ∃ r ∈ db.alerts.rows, r.id = atoi alertId ∧ r.userId = self.userId ∧
          r.alertType = alertTypeTime ∧ r.status = 0 ∧ r.contract.val = c ∧
          r.triggerTime.val = t
    | _ => False
  else True

/-- The alerts QUERY asks for: those of the user with the requested status. -/
def AlertDB.requested (db : AlertDB) (self : Session) (status : Bytes) :
    List AlertRecord :=
  db.alerts.select fun r =>
    r.userId = self.userId ∧ (atoi status = -1 ∨ r.status = atoi status)

/-- A QUERY reply that ends with END lists them all. -/
def Listed (self : Session) (line : Bytes) (lines : List Bytes) (db : AlertDB) : Prop :=
  if commandWord line = ascii "QUERY" then
    lines.getLast? = some (ascii "END") →
      match splitLine line with
      | _ :: _ :: status :: _ =>
          ∃ items, (db.requested self status).map alertLine = items.map some ∧
            lines = items ++ [ascii "END"]
      | _ => False
  else True

/-- The reply of the code, and the tables it leaves. -/
structure Ends (h : Handler) (s : FaultyWorld) (lines : List Bytes) (db : AlertDB) :
    Prop where
  lines : (run execFaulty h s).1.2.lines = lines
  db : (run execFaulty h s).2.world.db = db

/-- The reply of the code is true of the tables it leaves. -/
def Truthful (self : Session) (line : Bytes) (s : FaultyWorld) (h : Handler) : Prop :=
  ∀ lines db, Ends h s lines db →
    (∀ resp ∈ lines, ascii "OK" <+: resp → Promised self line resp db) ∧
      Listed self line lines db

/-! ## The exceptions -/

section Exceptions

variable {self : Session} {db : AlertDB} {sql sql' : Faults}

/-- REGISTER is answered OK although the UPDATE has failed, or a text was cut. -/
def RegisterMisreports (db : AlertDB) (sql : Faults) : List Bytes → Prop
  | _ :: u :: p :: e :: _ =>
      db.Completes sql u ∧ sql.step 1 = true ∨
        (db.Completes sql u ∨ db.Inserts sql u) ∧ (0 ∈ u ∨ 0 ∈ p ∨ 0 ∈ e)
  | _ => False

theorem RegisterMisreports.tokens {tokens : List Bytes}
    (h : RegisterMisreports db sql tokens) :
    ∃ word u p e rest, tokens = word :: u :: p :: e :: rest := by
  unfold RegisterMisreports at h
  split at h
  · exact ⟨_, _, _, _, _, rfl⟩
  · exact h.elim

/-- SET_EMAIL is answered OK and the address was cut. -/
def SetEmailMisreports (self : Session) (db : AlertDB) (sql sql' : Faults) :
    List Bytes → Prop
  | _ :: u :: p :: e :: _ =>
      0 ≤ self.userId ∧ u = self.username ∧ db.verifyLogin sql u p = self.userId ∧
        sql'.Succeeds ∧ 0 ∈ e
  | _ => False

theorem SetEmailMisreports.checks {tokens : List Bytes}
    (h : SetEmailMisreports self db sql sql' tokens) :
    0 ≤ self.userId ∧ ∃ word u p e rest, tokens = word :: u :: p :: e :: rest := by
  unfold SetEmailMisreports at h
  split at h
  · exact ⟨h.1, _, _, _, _, _, rfl⟩
  · exact h.elim

/-- ADD_PRICE is answered OK and the contract was cut. -/
def AddPriceMisreports (self : Session) (sql : Faults) : List Bytes → Prop
  | _ :: _ :: c :: _ :: cond :: _ =>
      0 ≤ self.userId ∧ (atoi cond = condGE ∨ atoi cond = condLE) ∧ sql.Succeeds ∧ 0 ∈ c
  | _ => False

theorem AddPriceMisreports.checks {tokens : List Bytes}
    (h : AddPriceMisreports self sql tokens) :
    0 ≤ self.userId ∧ ∃ word u c p cond rest, tokens =
    word :: u :: c :: p :: cond :: rest := by
  unfold AddPriceMisreports at h
  split at h
  · exact ⟨h.1, _, _, _, _, _, _, rfl⟩
  · exact h.elim

/-- ADD_TIME is answered OK and a text was cut. -/
def AddTimeMisreports (self : Session) (sql : Faults) : List Bytes → Prop
  | _ :: _ :: c :: t :: _ => 0 ≤ self.userId ∧ sql.Succeeds ∧ (0 ∈ c ∨ 0 ∈ t)
  | _ => False

theorem AddTimeMisreports.checks {tokens : List Bytes}
    (h : AddTimeMisreports self sql tokens) :
    0 ≤ self.userId ∧ ∃ word u c t rest, tokens = word :: u :: c :: t :: rest := by
  unfold AddTimeMisreports at h
  split at h
  · exact ⟨h.1, _, _, _, _, _, rfl⟩
  · exact h.elim

/-- MODIFY_PRICE is answered OK and the contract was cut. -/
def ModifyPriceMisreports (self : Session) (db : AlertDB) (sql : Faults) :
    List Bytes → Prop
  | _ :: alertId :: c :: _ :: cond :: _ =>
      0 ≤ self.userId ∧ (atoi cond = condGE ∨ atoi cond = condLE) ∧ sql.Succeeds ∧
        (∃ r ∈ db.alerts.rows, AlertDB.ownGuard (atoi alertId) self.userId r) ∧ 0 ∈ c
  | _ => False

theorem ModifyPriceMisreports.checks {tokens : List Bytes}
    (h : ModifyPriceMisreports self db sql tokens) :
    0 ≤ self.userId ∧
      ∃ word alertId c p cond rest, tokens =
      word :: alertId :: c :: p :: cond :: rest := by
  unfold ModifyPriceMisreports at h
  split at h
  · exact ⟨h.1, _, _, _, _, _, _, rfl⟩
  · exact h.elim

/-- MODIFY_TIME is answered OK and a text was cut. -/
def ModifyTimeMisreports (self : Session) (db : AlertDB) (sql : Faults) :
    List Bytes → Prop
  | _ :: alertId :: c :: t :: _ =>
      0 ≤ self.userId ∧ sql.Succeeds ∧
        (∃ r ∈ db.alerts.rows, AlertDB.ownGuard (atoi alertId) self.userId r) ∧
        (0 ∈ c ∨ 0 ∈ t)
  | _ => False

theorem ModifyTimeMisreports.checks {tokens : List Bytes}
    (h : ModifyTimeMisreports self db sql tokens) :
    0 ≤ self.userId ∧ ∃ word alertId c t rest, tokens =
    word :: alertId :: c :: t :: rest := by
  unfold ModifyTimeMisreports at h
  split at h
  · exact ⟨h.1, _, _, _, _, _, rfl⟩
  · exact h.elim

/-- The list of a QUERY was cut before an alert, and all lines before it have been
sent. -/
def QueryMisreports (self : Session) (db : AlertDB) (sql : Faults) : List Bytes → Prop
  | _ :: _ :: status :: _ =>
      0 ≤ self.userId ∧ ∃ k < (db.requested self status).length, sql.CutsAt k ∧
        ∀ r ∈ (db.requested self status).take k, alertLine r ≠ none
  | _ => False

theorem QueryMisreports.checks {tokens : List Bytes}
    (h : QueryMisreports self db sql tokens) :
    0 ≤ self.userId ∧ ∃ word u status rest, tokens = word :: u :: status :: rest := by
  unfold QueryMisreports at h
  split at h
  · exact ⟨h.1, _, _, _, _, rfl⟩
  · exact h.elim

end Exceptions

/-- When the reply is false: an UPDATE that failed unnoticed, a text that was cut at a NUL
byte, a list that was cut by a failure. -/
def Misreports (self : Session) (line : Bytes) (db : AlertDB) (sql : ℕ → Faults) : Prop :=
  if commandWord line = ascii "REGISTER" then RegisterMisreports db (sql 0)
    (splitLine line)
  else if commandWord line = ascii "SET_EMAIL" then
    SetEmailMisreports self db (sql 0) (sql 1) (splitLine line)
  else if commandWord line = ascii "ADD_PRICE" then
    AddPriceMisreports self (sql 0) (splitLine line)
  else if commandWord line = ascii "ADD_TIME" then
    AddTimeMisreports self (sql 0) (splitLine line)
  else if commandWord line = ascii "MODIFY_PRICE" then
    ModifyPriceMisreports self db (sql 0) (splitLine line)
  else if commandWord line = ascii "MODIFY_TIME" then
    ModifyTimeMisreports self db (sql 0) (splitLine line)
  else if commandWord line = ascii "QUERY" then
    QueryMisreports self db (sql 0) (splitLine line)
  else False

/-! ## Runs -/

section

variable {self : Session} {s : FaultyWorld} {lines : List Bytes} {db : AlertDB}

theorem ends_sendLine (resp : Bytes) : Ends (self.sendLine resp) s [resp] s.world.db :=
  ⟨rfl, rfl⟩

theorem silent_faulty {c : Call} (h : SilentCall c) (s : FaultyWorld) :
    (execFaulty c s).2.world.db = s.world.db := by
  cases c with
  | unregisterSocket uid sock =>
      simp only [execFaulty, execWith]
      split <;> rfl
  | subscribe c =>
      simp only [execFaulty, execWith]
      split <;> rfl
  | _ => first | rfl | exact h.elim

theorem ends_settled {p : Handler} {out : Session × Reply} (hp : p.Settled SilentCall out)
    (s : FaultyWorld) : Ends p s out.2.lines s.world.db := by
  obtain ⟨hdb, hout⟩ := Respects.run hp (fun s' : FaultyWorld => s'.world.db = s.world.db)
    (fun c s' hc h => ⟨(silent_faulty hc s').trans h, trivial⟩) rfl
  exact ⟨congrArg (fun out => out.2.lines) hout, hdb⟩

theorem ends_ask {c : Call} {k : c.Ans → Handler} (out : Session × Reply)
    (hdb : (execWith (s.sql 0) c s.world).2.db = db)
    (hk : (k (execWith (s.sql 0) c s.world).1).Settled SilentCall out) :
    Ends (ask c >>= k) s out.2.lines db := by
  obtain ⟨hlines, hdb'⟩ := ends_settled hk (execFaulty c s).2
  exact ⟨hlines, hdb'.trans hdb⟩

theorem ends_step {c : Call} {k : c.Ans → Handler}
    (h : Ends (k (execWith (s.sql 0) c s.world).1) (execFaulty c s).2 lines db) :
    Ends (ask c >>= k) s lines db := ⟨h.lines, h.db⟩

theorem Ends.truthful_iff {h : Handler} {line : Bytes} (hends : Ends h s lines db) :
    Truthful self line s h ↔
      (∀ resp ∈ lines, ascii "OK" <+: resp → Promised self line resp db) ∧
        Listed self line lines db := by
  refine ⟨fun htrue => htrue lines db hends, ?_⟩
  rintro htrue lines' db' ⟨hlines, hdb⟩
  rw [← hlines, ← hdb, hends.lines, hends.db]
  exact htrue

theorem Ends.truthful_line {h : Handler} {line resp : Bytes} (hends : Ends h s [resp] db)
    (hword : commandWord line ≠ ascii "QUERY") :
    Truthful self line s h ↔ (ascii "OK" <+: resp → Promised self line resp db) := by
  have hlisted : Listed self line [resp] db := by
    rw [Listed, if_neg hword]
    trivial
  rw [hends.truthful_iff, List.forall_mem_singleton, and_iff_left hlisted]

theorem truthful_ask (resp : Bytes) (db : AlertDB) {line : Bytes} {c : Call}
    {k : c.Ans → Handler} (hquery : commandWord line ≠ ascii "QUERY")
    (hdb : (execWith (s.sql 0) c s.world).2.db = db)
    (hk : (k (execWith (s.sql 0) c s.world).1).Settled SilentCall
      (self, ⟨[resp], false⟩)) :
    Truthful self line s (ask c >>= k) ↔
      (ascii "OK" <+: resp → Promised self line resp db) :=
  (ends_ask (self, ⟨[resp], false⟩) hdb hk).truthful_line hquery

/-- A handler that asks an INSERT and answers with the new id is truthful unless the row
is not the promised one. -/
theorem truthful_insert {line : Bytes} (err : Bytes) {c : Call} {k : c.Ans → Handler}
    {bad : Prop} (mk : ℤ → AlertRecord) (hmk : ∀ id, (mk id).id = id)
    (hquery : commandWord line ≠ ascii "QUERY") (herr : ¬ ascii "OK" <+: err)
    (hdb : (execWith (s.sql 0) c s.world).2.db =
      (s.world.db.insertAlert (s.sql 0) mk hmk).2)
    (hk : (k (execWith (s.sql 0) c s.world).1).Settled SilentCall
      (self, ⟨[if (s.world.db.insertAlert (s.sql 0) mk hmk).1 < 0 then err
        else ascii "OK " ++ fmtInt (s.world.db.insertAlert (s.sql 0) mk hmk).1], false⟩))
    (hpromised : ∀ id db, mk id ∈ db.alerts.rows →
      (Promised self line (ascii "OK " ++ fmtInt id) db ↔ ¬ bad)) :
    Truthful self line s (ask c >>= k) ↔ ¬ ((s.sql 0).Succeeds ∧ bad) := by
  rw [truthful_ask _ _ hquery hdb hk]
  by_cases hdone : (s.sql 0).Succeeds
  · have hid : ¬ (s.world.db.insertAlert (s.sql 0) mk hmk).1 < 0 := fun hneg =>
      (s.world.db.insertAlert_neg (s.sql 0)).mp hneg hdone
    rw [if_neg hid, imp_iff_right ⟨_, rfl⟩,
      s.world.db.insertAlert_of_succeeds (s.sql 0) hdone,
      hpromised _ _ (List.mem_append_right _ (List.mem_singleton_self _)),
      and_iff_right hdone]
  · rw [if_pos ((s.world.db.insertAlert_neg (s.sql 0)).mpr hdone)]
    exact iff_of_true (fun hok => absurd hok herr) fun hbad => hdone hbad.1

/-- A handler that asks an UPDATE is truthful unless the row is not the promised one. -/
theorem truthful_update {line : Bytes} (err : Bytes) {c : Call} {k : c.Ans → Handler}
    {bad : Prop} (guard : AlertRecord → Bool) (f : AlertRecord → AlertRecord)
    (hf : ∀ r, (f r).id = r.id)
    (hquery : commandWord line ≠ ascii "QUERY") (herr : ¬ ascii "OK" <+: err)
    (hdb : (execWith (s.sql 0) c s.world).2.db =
      (s.world.db.updateAlerts (s.sql 0) guard f hf).2)
    (hk : (k (execWith (s.sql 0) c s.world).1).Settled SilentCall
      (self, ⟨[if (s.world.db.updateAlerts (s.sql 0) guard f hf).1 = true then ascii "OK"
        else err], false⟩))
    (hpromised : ∀ r db, guard r → f r ∈ db.alerts.rows →
      (Promised self line (ascii "OK") db ↔ ¬ bad)) :
    Truthful self line s (ask c >>= k) ↔
      ¬ ((s.sql 0).Succeeds ∧ (∃ r ∈ s.world.db.alerts.rows, guard r) ∧ bad) := by
  rw [truthful_ask _ _ hquery hdb hk]
  have htrue : (s.world.db.updateAlerts (s.sql 0) guard f hf).1 = true ↔ _ :=
    s.world.db.updateAlerts_faulty_true (s.sql 0)
  by_cases hok : (s.world.db.updateAlerts (s.sql 0) guard f hf).1 = true
  · obtain ⟨hdone, hrow⟩ := htrue.mp hok
    obtain ⟨r, -, hguard, hr⟩ := s.world.db.updateAlerts_done (s.sql 0) hok
    rw [if_pos hok, imp_iff_right List.prefix_rfl, hpromised r _ hguard hr,
      and_iff_right hdone, and_iff_right hrow]
  · rw [if_neg hok]
    refine iff_of_true (fun hok' => absurd hok' herr) ?_
    rintro ⟨hdone, hrow, -⟩
    exact hok (htrue.mpr ⟨hdone, hrow⟩)

/-- An error line is never false. -/
theorem truthful_error {line resp : Bytes} (hok : ¬ ascii "OK" <+: resp)
    (hend : resp ≠ ascii "END") : Truthful self line s (self.sendLine resp) := by
  rw [(ends_sendLine resp).truthful_iff, List.forall_mem_singleton]
  refine ⟨fun h => absurd h hok, ?_⟩
  unfold Listed
  split
  · intro hlast
    exact absurd (Option.some.inj hlast) hend
  · trivial

theorem truthful_iff_of_error {line resp : Bytes} {bad : Prop} (hbad : ¬ bad)
    (hok : ¬ ascii "OK" <+: resp) (hend : resp ≠ ascii "END") :
    Truthful self line s (self.sendLine resp) ↔ ¬ bad :=
  iff_of_true (truthful_error hok hend) hbad

theorem truthful_loggedOut {line : Bytes} {bad : Prop} (hself : self.userId < 0)
    (hbad : bad → 0 ≤ self.userId) :
    Truthful self line s (self.say "ERR Not logged in") ↔ ¬ bad :=
  truthful_iff_of_error (fun h => absurd (hbad h) (not_le.mpr hself))
  (by decide) (by decide)

/-! ## What is stored -/

/-- The row that a REGISTER has stored is the promised one unless a text was cut. -/
theorem promised_register {line word u p e resp : Bytes} {rest : List Bytes}
    (hword : commandWord line = ascii "REGISTER")
    (htokens : splitLine line = word :: u :: p :: e :: rest) {r : UserRow}
    (hr : r ∈ db.users.rows) (hname : r.username = cstr u)
    (hpassword : r.password = cstr p) (hemail : r.email = cstr e) :
    Promised self line resp db ↔ ¬ (0 ∈ u ∨ 0 ∈ p ∨ 0 ∈ e) := by
  rw [Promised, if_pos hword, htokens]
  constructor
  · rintro ⟨r', -, rfl, rfl, rfl⟩
    exact not_or.mpr ⟨r'.username.property,
      not_or.mpr ⟨r'.password.property, r'.email.property⟩⟩
  · intro h
    obtain ⟨hu, hp, he⟩ : 0 ∉ u ∧ 0 ∉ p ∧ 0 ∉ e := by
      simpa only [not_or] using h
    refine ⟨r, hr, ?_, ?_, ?_⟩
    · rw [hname, (cstr_val_eq_iff u).mpr hu]
    · rw [hpassword, (cstr_val_eq_iff p).mpr hp]
    · rw [hemail, (cstr_val_eq_iff e).mpr he]

theorem promised_setEmail {line word u p e resp : Bytes} {rest : List Bytes}
    (hword : commandWord line = ascii "SET_EMAIL")
    (htokens : splitLine line = word :: u :: p :: e :: rest) {r : UserRow}
    (hid : r.id = self.userId) (hr : { r with email := cstr e } ∈ db.users.rows) :
    Promised self line resp db ↔ ¬ 0 ∈ e := by
  unfold Promised
  rw [hword, if_neg (by decide), if_pos rfl, htokens]
  constructor
  · rintro ⟨r', -, -, rfl⟩
    exact r'.email.property
  · intro he
    exact ⟨_, hr, hid, (cstr_val_eq_iff e).mpr he⟩

theorem promised_addPrice {line word u c p cond resp : Bytes} {rest : List Bytes}
    (hword : commandWord line = ascii "ADD_PRICE")
    (htokens : splitLine line = word :: u :: c :: p :: cond :: rest) {ts : Text} {id : ℤ}
    (hr : AlertDB.priceRow self.userId c (atof p) (atoi cond) ts id ∈ db.alerts.rows)
    (hresp : resp = ascii "OK " ++ fmtInt id) :
    Promised self line resp db ↔ ¬ 0 ∈ c := by
  unfold Promised
  rw [hword, if_neg (by decide), if_neg (by decide), if_pos rfl, htokens]
  constructor
  · rintro ⟨r, -, -, -, -, -, rfl, -⟩
    exact r.contract.property
  · intro hc
    exact ⟨_, hr, hresp, rfl, rfl, rfl, (cstr_val_eq_iff c).mpr hc, rfl, rfl⟩

theorem promised_addTime {line word u c t resp : Bytes} {rest : List Bytes}
    (hword : commandWord line = ascii "ADD_TIME")
    (htokens : splitLine line = word :: u :: c :: t :: rest) {ts : Text} {id : ℤ}
    (hr : AlertDB.timeRow self.userId c t ts id ∈ db.alerts.rows)
    (hresp : resp = ascii "OK " ++ fmtInt id) :
    Promised self line resp db ↔ ¬ (0 ∈ c ∨ 0 ∈ t) := by
  unfold Promised
  rw [hword, if_neg (by decide), if_neg (by decide), if_neg (by decide),
    if_pos rfl, htokens]
  constructor
  · rintro ⟨r, -, -, -, -, -, rfl, rfl⟩
    exact not_or.mpr ⟨r.contract.property, r.triggerTime.property⟩
  · intro h
    obtain ⟨hc, ht⟩ := not_or.mp h
    exact ⟨_, hr, hresp, rfl, rfl, rfl, (cstr_val_eq_iff c).mpr hc,
      (cstr_val_eq_iff t).mpr ht⟩

theorem promised_modifyPrice {line word alertId c p cond resp : Bytes} {rest : List Bytes}
    (hword : commandWord line = ascii "MODIFY_PRICE")
    (htokens : splitLine line = word :: alertId :: c :: p :: cond :: rest)
    {r : AlertRecord} (hid : r.id = atoi alertId) (howner : r.userId = self.userId)
    (hr : { r with contract := cstr c, triggerPrice := atof p, condition := atoi cond,
                   alertType := 0, status := 0 } ∈ db.alerts.rows) :
    Promised self line resp db ↔ ¬ 0 ∈ c := by
  unfold Promised
  rw [hword, if_neg (by decide), if_neg (by decide), if_neg (by decide),
    if_neg (by decide), if_neg (by decide), if_pos rfl, htokens]
  constructor
  · rintro ⟨r', -, -, -, -, -, rfl, -⟩
    exact r'.contract.property
  · intro hc
    exact ⟨_, hr, hid, howner, rfl, rfl, (cstr_val_eq_iff c).mpr hc, rfl, rfl⟩

theorem promised_modifyTime {line word alertId c t resp : Bytes} {rest : List Bytes}
    (hword : commandWord line = ascii "MODIFY_TIME")
    (htokens : splitLine line = word :: alertId :: c :: t :: rest) {r : AlertRecord}
    (hid : r.id = atoi alertId) (howner : r.userId = self.userId)
    (hr : { r with
      contract := cstr c, triggerTime := cstr t, alertType := 1, status := 0 } ∈
      db.alerts.rows) :
    Promised self line resp db ↔ ¬ (0 ∈ c ∨ 0 ∈ t) := by
  unfold Promised
  rw [hword, if_neg (by decide), if_neg (by decide), if_neg (by decide),
    if_neg (by decide), if_neg (by decide), if_neg (by decide), if_pos rfl, htokens]
  constructor
  · rintro ⟨r', -, -, -, -, -, rfl, rfl⟩
    exact not_or.mpr ⟨r'.contract.property, r'.triggerTime.property⟩
  · intro h
    obtain ⟨hc, ht⟩ := not_or.mp h
    exact ⟨_, hr, hid, howner, rfl, rfl, (cstr_val_eq_iff c).mpr hc,
      (cstr_val_eq_iff t).mpr ht⟩

end

section Handlers

variable (self : Session) {line : Bytes} (s : FaultyWorld)

theorem handleRegister_truthful (hword : commandWord line = ascii "REGISTER") :
    Truthful self line s (handleRegister self line) ↔
      ¬ Misreports self line s.world.db s.sql := by
  have hquery : commandWord line ≠ ascii "QUERY" := by
    rw [hword]
    decide
  rw [Misreports, if_pos hword]
  unfold handleRegister
  split
  · rename_i word u p e rest htokens
    have hne := arguments_ne_nil htokens
    have hp := hne.2.1
    have hnot : ¬ (u = [] ∨ p = [] ∨ e = []) := by simpa using hne
    rw [if_neg hnot, htokens, RegisterMisreports]
    refine Iff.trans
      (truthful_ask (if (s.world.db.registerUser (s.sql 0) u p e).1 < 0 then
      ascii "ERR username already taken" else ascii "OK")
      (s.world.db.registerUser (s.sql 0) u p e).2 hquery rfl ?_) ?_
    · change Settled
        _ _ (if (s.world.db.registerUser (s.sql 0) u p e).1 < 0 then _ else _)
      split
      · exact settled_ret
      · exact settled_ret
    have hout := s.world.db.registerUser_faulty (s.sql 0) u p e
    generalize s.world.db.registerUser (s.sql 0) u p e = out at hout
    cases hout with
    | refused hcompletes hinserts =>
        rw [if_pos (by exact neg_one_lt_zero)]
        refine iff_of_true (fun hok => absurd hok (by decide)) ?_
        rintro (⟨h, -⟩ | ⟨h | h, -⟩)
        · exact hcompletes h
        · exact hcompletes h
        · exact hinserts h
    | @lost r hcompletes hr hu hempty hid hstep =>
        rw [if_neg (not_lt.mpr hid)]
        refine iff_of_false (fun h => ?_) (not_not.mpr (.inl ⟨hcompletes, hstep⟩))
        have hpromised := h List.prefix_rfl
        rw [Promised, if_pos hword, htokens] at hpromised
        obtain ⟨r', hr', hu', hp', -⟩ := hpromised
        -- the row of the username is still the one without a password
        have hname : r'.username = r.username := by
          rw [hu, ← hu', cstr_val]
        obtain rfl := List.inj_on_of_nodup_map s.world.db.unique hr' hr hname
        rw [hempty] at hp'
        exact hp hp'.symm
    | @completed r hcompletes hr hu hid hstep =>
        rw [if_neg (not_lt.mpr hid), imp_iff_right List.prefix_rfl,
          promised_register hword htokens (AlertDB.mem_updateUser _ hr)
            (by simpa using hu)
            (by simp) (by simp)]
        simp only [hcompletes, hstep, Bool.false_eq_true, and_false, true_or, true_and,
          false_or]
    | inserted hinserts hu =>
        have hseq := s.world.db.users.seq_nonneg
        have hcompletes : ¬ s.world.db.Completes (s.sql 0) u := by
          rintro ⟨-, -, -, r, hr, hname, -⟩
          exact hu (List.mem_map.mpr ⟨r, hr, hname⟩)
        rw [if_neg (by dsimp only; omega), imp_iff_right List.prefix_rfl,
          promised_register hword htokens
            (List.mem_append_right _ (List.mem_singleton_self _)) rfl rfl rfl]
        simp only [hcompletes, hinserts, false_and, or_true, true_and, false_or]
  · rename_i hshort
    refine truthful_iff_of_error (fun hbad => ?_) (by decide) (by decide)
    obtain ⟨_, _, _, _, _, htokens⟩ := hbad.tokens
    exact hshort _ _ _ _ _ htokens

theorem handleAddPrice_truthful (hword : commandWord line = ascii "ADD_PRICE") :
    Truthful self line s (handleAddPrice self line) ↔
      ¬ Misreports self line s.world.db s.sql := by
  have hquery : commandWord line ≠ ascii "QUERY" := by
    rw [hword]
    decide
  unfold Misreports
  rw [hword, if_neg (by decide), if_neg (by decide), if_pos rfl]
  unfold handleAddPrice
  by_cases hself : self.userId < 0
  · rw [if_pos hself]
    exact truthful_loggedOut hself fun hbad => hbad.checks.1
  · rw [if_neg hself]
    split
    · rename_i word u c p cond rest htokens
      rw [htokens, AddPriceMisreports]
      by_cases hcond : atoi cond ≠ condGE ∧ atoi cond ≠ condLE
      · rw [if_pos hcond]
        refine truthful_iff_of_error (fun hbad => ?_) (by decide) (by decide)
        exact hbad.2.1.elim hcond.1 hcond.2
      · rw [if_neg hcond]
        have hself := not_lt.mp hself
        have hcond : atoi cond = condGE ∨ atoi cond = condLE := by
          simpa only [ne_eq, not_and_or, not_not] using hcond
        refine (truthful_insert (ascii "ERR DB error adding price alert")
          (AlertDB.priceRow self.userId c (atof p) (atoi cond) (s.world.clock 0).stamp)
          (fun _ => rfl) hquery (by decide) rfl ?_
          fun id db hr => promised_addPrice hword htokens hr rfl).trans
            (not_congr ⟨fun hbad => ⟨hself, hcond, hbad⟩, fun hbad => hbad.2.2⟩)
        change Settled _ _ (if (s.world.db.addPriceAlert _ _ _ _ _ _).1 < 0 then _ else _)
        split
        · rename_i hneg
          exact if_pos hneg ▸ settled_ret
        · rename_i hid
          exact if_neg hid ▸ settled_refresh (settled_call trivial fun _ => settled_ret)
    · rename_i hshort
      refine truthful_iff_of_error (fun hbad => ?_) (by decide) (by decide)
      obtain ⟨-, _, _, _, _, _, _, htokens⟩ := hbad.checks
      exact hshort _ _ _ _ _ _ htokens

theorem handleAddTime_truthful (hword : commandWord line = ascii "ADD_TIME") :
    Truthful self line s (handleAddTime self line) ↔
      ¬ Misreports self line s.world.db s.sql := by
  have hquery : commandWord line ≠ ascii "QUERY" := by
    rw [hword]
    decide
  unfold Misreports
  rw [hword, if_neg (by decide), if_neg (by decide), if_neg (by decide), if_pos rfl]
  unfold handleAddTime
  by_cases hself : self.userId < 0
  · rw [if_pos hself]
    exact truthful_loggedOut hself fun hbad => hbad.checks.1
  · rw [if_neg hself]
    have hself := not_lt.mp hself
    split
    · rename_i word u c t rest htokens
      rw [htokens, AddTimeMisreports]
      refine (truthful_insert (ascii "ERR DB error adding time alert")
        (AlertDB.timeRow self.userId c t (s.world.clock 0).stamp) (fun _ => rfl) hquery
        (by decide) rfl ?_ fun id db hr => promised_addTime hword htokens hr rfl).trans
          (not_congr ⟨fun hbad => ⟨hself, hbad⟩, And.right⟩)
      change Settled _ _ (if (s.world.db.addTimeAlert _ _ _ _ _).1 < 0 then _ else _)
      split
      · rename_i hneg
        exact if_pos hneg ▸ settled_ret
      · rename_i hid
        exact if_neg hid ▸ settled_call trivial fun _ => settled_ret
    · rename_i hshort
      refine truthful_iff_of_error (fun hbad => ?_) (by decide) (by decide)
      obtain ⟨-, _, _, _, _, _, htokens⟩ := hbad.checks
      exact hshort _ _ _ _ _ htokens

/-- DELETE never reports more than it has done. -/
theorem handleDelete_truthful (hword : commandWord line = ascii "DELETE") :
    Truthful self line s (handleDelete self line) ↔
      ¬ Misreports self line s.world.db s.sql := by
  have hquery : commandWord line ≠ ascii "QUERY" := by
    rw [hword]
    decide
  have hbad : ¬ Misreports self line s.world.db s.sql := by
    unfold Misreports
    rw [hword]
    exact id
  unfold handleDelete
  by_cases hself : self.userId < 0
  · rw [if_pos hself]
    exact truthful_iff_of_error hbad (by decide) (by decide)
  · rw [if_neg hself]
    split
    · rename_i word alertId rest htokens
      have hdeleted : ∀ r db, AlertDB.ownGuard (atoi alertId) self.userId r →
          { r with status := 2 } ∈ db.alerts.rows →
          (Promised self line (ascii "OK") db ↔ ¬ False) := by
        intro r db hguard hr
        obtain ⟨hid, howner, -⟩ := AlertDB.ownGuard_iff.mp hguard
        refine iff_of_true ?_ not_false
        unfold Promised
        rw [hword, if_neg (by decide), if_neg (by decide), if_neg (by decide),
          if_neg (by decide), if_pos rfl, htokens]
        exact ⟨_, hr, hid, howner, rfl⟩
      refine (truthful_update (ascii "ERR Delete failed (not found or already deleted)")
        (AlertDB.ownGuard (atoi alertId) self.userId) (fun r => { r with status := 2 })
        (fun _ => rfl) hquery (by decide) rfl ?_ hdeleted).trans
          (iff_of_true (fun hbad => hbad.2.2) hbad)
      change Settled _ _ (if (s.world.db.deleteAlert _ _ _).1 = true then _ else _)
      split
      · rename_i hok
        exact if_pos hok ▸ settled_refresh settled_ret
      · rename_i hok
        exact if_neg hok ▸ settled_ret
    · exact truthful_iff_of_error hbad (by decide) (by decide)

theorem handleModifyPrice_truthful (hword : commandWord line = ascii "MODIFY_PRICE") :
    Truthful self line s (handleModifyPrice self line) ↔
      ¬ Misreports self line s.world.db s.sql := by
  have hquery : commandWord line ≠ ascii "QUERY" := by
    rw [hword]
    decide
  unfold Misreports
  rw [hword, if_neg (by decide), if_neg (by decide), if_neg (by decide),
    if_neg (by decide), if_pos rfl]
  unfold handleModifyPrice
  by_cases hself : self.userId < 0
  · rw [if_pos hself]
    exact truthful_loggedOut hself fun hbad => hbad.checks.1
  · rw [if_neg hself]
    have hself := not_lt.mp hself
    split
    · rename_i word alertId c p cond rest htokens
      rw [htokens, ModifyPriceMisreports]
      by_cases hcond : atoi cond ≠ condGE ∧ atoi cond ≠ condLE
      · rw [if_pos hcond]
        refine truthful_iff_of_error (fun hbad => ?_) (by decide) (by decide)
        exact hbad.2.1.elim hcond.1 hcond.2
      · rw [if_neg hcond]
        have hcond : atoi cond = condGE ∨ atoi cond = condLE := by
          simpa only [ne_eq, not_and_or, not_not] using hcond
        refine (truthful_update (ascii "ERR Modify failed")
          (AlertDB.ownGuard (atoi alertId) self.userId)
          (fun r => { r with
            contract := cstr c, triggerPrice := atof p, condition := atoi cond,
                             alertType := 0, status := 0 })
          (fun _ => rfl) hquery (by decide) rfl ?_ fun r db hguard hr => ?_).trans
            (not_congr ⟨fun hbad => ⟨hself, hcond, hbad⟩, fun hbad => hbad.2.2⟩)
        · change Settled _ _
            (if (s.world.db.modifyPriceAlert _ _ _ _ _ _).1 = true then _ else _)
          split
          · rename_i hok
            exact if_pos hok ▸ settled_refresh (settled_call trivial fun _ => settled_ret)
          · rename_i hok
            exact if_neg hok ▸ settled_ret
        · obtain ⟨hid, howner, -⟩ := AlertDB.ownGuard_iff.mp hguard
          exact promised_modifyPrice hword htokens hid howner hr
    · rename_i hshort
      refine truthful_iff_of_error (fun hbad => ?_) (by decide) (by decide)
      obtain ⟨-, _, _, _, _, _, _, htokens⟩ := hbad.checks
      exact hshort _ _ _ _ _ _ htokens

theorem handleModifyTime_truthful (hword : commandWord line = ascii "MODIFY_TIME") :
    Truthful self line s (handleModifyTime self line) ↔
      ¬ Misreports self line s.world.db s.sql := by
  have hquery : commandWord line ≠ ascii "QUERY" := by
    rw [hword]
    decide
  unfold Misreports
  rw [hword, if_neg (by decide), if_neg (by decide), if_neg (by decide),
    if_neg (by decide), if_neg (by decide), if_pos rfl]
  unfold handleModifyTime
  by_cases hself : self.userId < 0
  · rw [if_pos hself]
    exact truthful_loggedOut hself fun hbad => hbad.checks.1
  · rw [if_neg hself]
    have hself := not_lt.mp hself
    split
    · rename_i word alertId c t rest htokens
      rw [htokens, ModifyTimeMisreports]
      refine (truthful_update (ascii "ERR Modify failed")
        (AlertDB.ownGuard (atoi alertId) self.userId)
        (fun r => { r with contract := cstr c, triggerTime := cstr t, alertType := 1,
                           status := 0 })
        (fun _ => rfl) hquery (by decide) rfl ?_ fun r db hguard hr => ?_).trans
          (not_congr ⟨fun hbad => ⟨hself, hbad⟩, And.right⟩)
      · change Settled
          _ _ (if (s.world.db.modifyTimeAlert _ _ _ _ _).1 = true then _ else _)
        split
        · rename_i hok
          exact if_pos hok ▸ settled_refresh settled_ret
        · rename_i hok
          exact if_neg hok ▸ settled_ret
      · obtain ⟨hid, howner, -⟩ := AlertDB.ownGuard_iff.mp hguard
        exact promised_modifyTime hword htokens hid howner hr
    · rename_i hshort
      refine truthful_iff_of_error (fun hbad => ?_) (by decide) (by decide)
      obtain ⟨-, _, _, _, _, _, htokens⟩ := hbad.checks
      exact hshort _ _ _ _ _ htokens

theorem handleSetEmail_truthful (hword : commandWord line = ascii "SET_EMAIL") :
    Truthful self line s (handleSetEmail self line) ↔
      ¬ Misreports self line s.world.db s.sql := by
  have hquery : commandWord line ≠ ascii "QUERY" := by
    rw [hword]
    decide
  unfold Misreports
  rw [hword, if_neg (by decide), if_pos rfl]
  unfold handleSetEmail
  by_cases hself : self.userId < 0
  · rw [if_pos hself]
    exact truthful_loggedOut hself fun hbad => hbad.checks.1
  · rw [if_neg hself]
    have hself := not_lt.mp hself
    split
    · rename_i word u p e rest htokens
      rw [htokens, SetEmailMisreports]
      by_cases hname : u ≠ self.username
      · rw [if_pos hname]
        exact truthful_iff_of_error (fun hbad => hname hbad.2.1) (by decide) (by decide)
      · rw [if_neg hname]
        have hname := not_not.mp hname
        by_cases hverify : s.world.db.verifyLogin (s.sql 0) u p ≠ self.userId
        · refine Iff.trans
            (truthful_ask (ascii "ERR wrong username or password") s.world.db
            hquery rfl ?_) ?_
          · change Settled
              _ _ (if s.world.db.verifyLogin _ _ _ ≠ self.userId then _ else _)
            rw [if_pos hverify]
            exact settled_ret
          · exact iff_of_true (fun hok => absurd hok (by decide)) fun hbad =>
              hverify hbad.2.2.1
        · have hverify := not_not.mp hverify
          obtain ⟨r, hr, -, -, hid⟩ :=
            s.world.db.exists_of_verifyLogin_faulty (s.sql 0) (hverify ▸ hself)
          -- the e-mail address is stored under the outcomes of the second call
          have hset : ∀ resp db, s.world.db.setEmail (s.sql 1) self.userId e =
                (decide (resp = ascii "OK"), db) →
              resp = ascii "OK" ∨ resp = ascii "ERR Failed to set email" →
              (Truthful self line s (ask (.verifyLogin u p) >>= fun uid =>
                if uid ≠ self.userId then self.say "ERR wrong username or password"
                else do
                  let ok : Bool ← ask (.setEmail self.userId e)
                  if ok then self.say "OK" else self.say "ERR Failed to set email") ↔
                (ascii "OK" <+: resp → Promised self line resp db)) := by
            intro resp db hset hresp
            have hends : Ends (ask (.verifyLogin u p) >>= fun uid =>
                if uid ≠ self.userId then self.say "ERR wrong username or password"
                else do
                  let ok : Bool ← ask (.setEmail self.userId e)
                  if ok then self.say "OK" else self.say "ERR Failed to set email") s
                [resp] db := by
              refine ends_step ?_
              change Ends (if s.world.db.verifyLogin _ _ _ ≠ self.userId then _ else _)
                _ _ _
              rw [if_neg (not_not.mpr hverify)]
              refine ends_ask (self, ⟨[resp], false⟩) (congrArg Prod.snd hset) ?_
              change Settled
                _ _ (if (s.world.db.setEmail (s.sql 1) _ _).1 = true then _ else _)
              rw [hset]
              rcases hresp with rfl | rfl
              · exact settled_ret
              · exact settled_ret
            exact hends.truthful_line hquery
          by_cases hdone : (s.sql 1).Succeeds
          · refine (hset (ascii "OK") _ (s.world.db.setEmail_of_succeeds _ hdone _ _)
              (.inl rfl)).trans ?_
            have hid := hid.trans hverify
            have hset : { r with email := cstr e } ∈
                (s.world.db.updateUser self.userId id fun _ => cstr e).users.rows := by
              rw [AlertDB.updateUser_rows]
              exact List.mem_map.mpr ⟨r, hr, if_pos hid⟩
            rw [imp_iff_right List.prefix_rfl, promised_setEmail hword htokens hid hset]
            exact not_congr ⟨fun he => ⟨hself, hname, hverify, hdone, he⟩,
              fun hbad => hbad.2.2.2.2⟩
          · refine (hset (ascii "ERR Failed to set email") _
              (s.world.db.setEmail_of_fails _ hdone _ _) (.inr rfl)).trans ?_
            exact iff_of_true (fun hok => absurd hok (by decide)) fun hbad =>
              hdone hbad.2.2.2.1
    · rename_i hshort
      refine truthful_iff_of_error (fun hbad => ?_) (by decide) (by decide)
      obtain ⟨-, _, _, _, _, _, htokens⟩ := hbad.checks
      exact hshort _ _ _ _ _ htokens

/-! ## The list -/

/-- The reply to QUERY ends with END exactly if every ALERT line fits its buffer. -/
theorem alertLines_getLast? (records : List AlertRecord) :
    (alertLines records).lines.getLast? = some (ascii "END") ↔
      ∀ r ∈ records, alertLine r ≠ none := by
  induction records with
  | nil => exact iff_of_true rfl (List.forall_mem_nil _)
  | cons r rest ih =>
      rw [alertLines, List.forall_mem_cons]
      cases hline : alertLine r with
      | none => exact iff_of_false (Option.some_ne_none _).symm fun h => h.1 rfl
      | some item =>
          have hitem : item ≠ ascii "END" := by
            obtain rfl := snprintf_eq_some hline
            exact fun h => absurd (List.head_eq_of_cons_eq h) (by decide)
          rw [← ih, and_iff_right (Option.some_ne_none item), List.getLast?_cons]
          cases (alertLines rest).lines.getLast? with
          | none =>
              exact iff_of_false (fun h => hitem (Option.some.inj h))
                (Option.some_ne_none _).symm
          | some last => exact Iff.rfl

/-- Where every line fits, the reply is the ALERT lines of the records, and END. -/
theorem alertLines_eq_append {records : List AlertRecord}
    (h : ∀ r ∈ records, alertLine r ≠ none) :
    ∃ items, records.map alertLine = items.map some ∧
      (alertLines records).lines = items ++ [ascii "END"] := by
  induction records with
  | nil => exact ⟨[], rfl, rfl⟩
  | cons r rest ih =>
      obtain ⟨hr, hrest⟩ := List.forall_mem_cons.mp h
      obtain ⟨item, hitem⟩ := Option.ne_none_iff_exists'.mp hr
      obtain ⟨items, hitems, hlines⟩ := ih hrest
      refine ⟨item :: items, ?_, ?_⟩
      · rw [List.map_cons, List.map_cons, hitem, hitems]
      · rw [alertLines, hitem]
        exact congrArg (item :: ·) hlines

/-- A list that ends with END is whole unless a failure cut it before an alert that would
have been sent. -/
theorem listed_iff_of_query (sql : Faults) (rows : List AlertRecord) :
    ((alertLines (sql.query rows)).lines.getLast? = some (ascii "END") →
      ∃ items, rows.map alertLine = items.map some ∧
        (alertLines (sql.query rows)).lines = items ++ [ascii "END"]) ↔
      ¬ ∃ k < rows.length, sql.CutsAt k ∧ ∀ r ∈ rows.take k, alertLine r ≠ none := by
  rw [alertLines_getLast?]
  constructor
  · rintro hlisted ⟨k, hk, hcut, hfits⟩
    have hshort := sql.query_length_le rows hcut
    have hread : ∀ r ∈ sql.query rows, alertLine r ≠ none := by
      intro r hr
      refine hfits r (List.IsPrefix.subset ?_ hr)
      exact List.prefix_take_iff.mpr ⟨sql.query_isPrefix rows, hshort⟩
    obtain ⟨items, hitems, hlines⟩ := hlisted hread
    obtain ⟨items', hitems', hlines'⟩ := alertLines_eq_append hread
    obtain rfl : items = items' := List.append_cancel_right (hlines.symm.trans hlines')
    have hlength := congrArg List.length (hitems.trans hitems'.symm)
    rw [List.length_map, List.length_map] at hlength
    omega
  · intro hcut hread
    by_cases hwhole : sql.query rows = rows
    · rw [hwhole] at hread ⊢
      exact alertLines_eq_append hread
    · obtain ⟨k, hk, hcutsAt, htake⟩ := sql.exists_cut rows hwhole
      exact absurd ⟨k, hk, hcutsAt, htake ▸ hread⟩ hcut

theorem queryAlerts_eq (db : AlertDB) (sql : Faults) (status : Bytes) :
    db.queryAlerts sql self.userId (atoi status) =
    sql.query (db.requested self status) := by
  unfold AlertDB.queryAlerts AlertDB.requested
  by_cases hall : atoi status = -1
  · simp only [hall, if_true, true_or, and_true]
  · simp only [hall, if_false, false_or]

theorem handleQuery_truthful (hword : commandWord line = ascii "QUERY") :
    Truthful self line s (handleQuery self line) ↔
      ¬ Misreports self line s.world.db s.sql := by
  unfold Misreports
  rw [hword, if_neg (by decide), if_neg (by decide), if_neg (by decide),
    if_neg (by decide), if_neg (by decide), if_neg (by decide), if_pos rfl]
  unfold handleQuery
  by_cases hself : self.userId < 0
  · rw [if_pos hself]
    exact truthful_loggedOut hself fun hbad => hbad.checks.1
  · rw [if_neg hself]
    have hself := not_lt.mp hself
    split
    · rename_i word u status rest htokens
      rw [htokens, QueryMisreports]
      have hends : Ends (ask (.queryAlerts self.userId (atoi status)) >>= fun records =>
          return (self, alertLines records)) s
          (alertLines ((s.sql 0).query (s.world.db.requested self status))).lines
          s.world.db := by
        rw [← queryAlerts_eq]
        exact ⟨rfl, rfl⟩
      refine Iff.trans hends.truthful_iff ?_
      have hpromised : ∀ resp, Promised self line resp s.world.db := fun resp => by
        unfold Promised
        rw [hword]
        trivial
      rw [and_iff_right fun resp _ _ => hpromised resp, Listed, if_pos hword, htokens,
        listed_iff_of_query]
      exact not_congr (and_iff_right hself).symm
    · rename_i hshort
      refine truthful_iff_of_error (fun hbad => ?_) (by decide) (by decide)
      obtain ⟨-, _, _, _, _, htokens⟩ := hbad.checks
      exact hshort _ _ _ _ htokens

end Handlers

/-- The other commands promise nothing about the tables. -/
theorem truthful_other {self : Session} {line : Bytes} (s : FaultyWorld)
    (hother : ∀ word ∈ ["REGISTER", "SET_EMAIL", "ADD_PRICE", "ADD_TIME", "DELETE",
      "MODIFY_PRICE", "MODIFY_TIME", "QUERY"], commandWord line ≠ ascii word) :
    Truthful self line s (dispatch self line) ↔
      ¬ Misreports self line s.world.db s.sql := by
  simp only [List.forall_mem_cons] at hother
  obtain ⟨hregister, hsetEmail, haddPrice, haddTime, hdelete, hmodifyPrice, hmodifyTime,
    hquery, -⟩ := hother
  refine iff_of_true (fun lines db _ => ⟨fun resp _ _ => ?_, ?_⟩) fun hbad => ?_
  · rw [Promised, if_neg hregister, if_neg hsetEmail, if_neg haddPrice, if_neg haddTime,
      if_neg hdelete, if_neg hmodifyPrice, if_neg hmodifyTime]
    trivial
  · rw [Listed, if_neg hquery]
    trivial
  · rw [Misreports, if_neg hregister, if_neg hsetEmail, if_neg haddPrice, if_neg haddTime,
      if_neg hmodifyPrice, if_neg hmodifyTime, if_neg hquery] at hbad
    exact hbad

/-- In every state and under every pattern of failures, the reply is true of the tables it
leaves exactly if the line is none of the exceptions. -/
theorem dispatch_truthful_iff (self : Session) (line : Bytes) (s : FaultyWorld) :
    Truthful self line s (dispatch self line) ↔
      ¬ Misreports self line s.world.db s.sql := by
  by_cases hregister : commandWord line = ascii "REGISTER"
  · rw [dispatch_register hregister]
    exact handleRegister_truthful self s hregister
  by_cases hsetEmail : commandWord line = ascii "SET_EMAIL"
  · rw [dispatch_setEmail hsetEmail]
    exact handleSetEmail_truthful self s hsetEmail
  by_cases haddPrice : commandWord line = ascii "ADD_PRICE"
  · rw [dispatch_addPrice haddPrice]
    exact handleAddPrice_truthful self s haddPrice
  by_cases haddTime : commandWord line = ascii "ADD_TIME"
  · rw [dispatch_addTime haddTime]
    exact handleAddTime_truthful self s haddTime
  by_cases hdelete : commandWord line = ascii "DELETE"
  · rw [dispatch_delete hdelete]
    exact handleDelete_truthful self s hdelete
  by_cases hmodifyPrice : commandWord line = ascii "MODIFY_PRICE"
  · rw [dispatch_modifyPrice hmodifyPrice]
    exact handleModifyPrice_truthful self s hmodifyPrice
  by_cases hmodifyTime : commandWord line = ascii "MODIFY_TIME"
  · rw [dispatch_modifyTime hmodifyTime]
    exact handleModifyTime_truthful self s hmodifyTime
  by_cases hquery : commandWord line = ascii "QUERY"
  · rw [dispatch_query self line hquery]
    exact handleQuery_truthful self s hquery
  exact truthful_other s (by simp [*])

/-- A user with one alert asks for the pending ones, and the query cannot be prepared: the
list is empty and ends with END. -/
theorem failed_query_ends :
    ¬ ∀ s : Server, Reachable s → ∀ sock self, s.sessions sock = some self →
      ∀ line sql, Truthful self line ⟨s.world, sql⟩ (dispatch self line) := by
  intro hall
  have hstate : ((serveAll exec (.off .created fun _ => ⟨2025, 6, 0, 8, 55, 0⟩)
      [.startUp true, .connect 7, .line 7 (ascii "REGISTER ann pw a@b"),
        .line 7 (ascii "LOGIN ann pw"),
        .line 7 (ascii "ADD_TIME ann au2512 09:30:00")]).map fun s =>
          (s.sessions 7, s.world.db.alerts.rows.map fun r => (r.userId, r.status))) =
      some (some ⟨7, 1, ascii "ann"⟩, [(1, 0)]) := by decide +kernel
  obtain ⟨s, hs, hboth⟩ := Option.map_eq_some_iff.mp hstate
  obtain ⟨hsession, hrows⟩ := Prod.mk.inj hboth
  have hword : commandWord (ascii "QUERY ann 0") = ascii "QUERY" := by decide
  have htrue := hall s ⟨_, _, _, hs⟩ 7 _ hsession (ascii "QUERY ann 0") fun _ =>
    ⟨fun _ => true, fun _ => false⟩
  rw [dispatch_query _ _ hword, handleQuery_truthful _ _ hword, Misreports] at htrue
  refine htrue ?_
  rw [hword]
  have hone : 0 < (s.world.db.requested ⟨7, 1, ascii "ann"⟩ (ascii "0")).length := by
    obtain ⟨r, hr, hrow⟩ := List.mem_map.mp (hrows ▸ List.mem_singleton_self (1, 0))
    obtain ⟨howner, hpending⟩ := Prod.mk.inj hrow
    refine List.length_pos_of_mem (a := r) ((Table.mem_select _).mpr ⟨hr, ?_⟩)
    exact decide_eq_true ⟨howner, .inr hpending⟩
  exact ⟨by decide, 0, hone, .inl ⟨rfl, rfl⟩, List.forall_mem_nil _⟩

end CloudAlert
