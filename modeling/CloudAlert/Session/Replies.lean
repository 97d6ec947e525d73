import CloudAlert.Server.Contracts
import CloudAlert.Text.Width

/-!
# The shape of a reply

A command is answered by one line that begins with OK or ERR, except QUERY, GET_PRICE and
GET_PRICES, which are answered by lines that begin with ALERT or PRICE and then END. The
texts a handler stores are tokens of its line, and no line of a reply contains a line
break as long as the texts it quotes from the tables contain none.
-/

namespace CloudAlert

open Program

/-! ## Stored texts -/

/-- A byte string without white space. -/
def NoSpace (tok : Bytes) : Prop := ∀ b ∈ tok, isSpace b = false

theorem noSpace_of_mem {line tok : Bytes} (h : tok ∈ splitLine line) : NoSpace tok :=
  (isToken_of_mem_splitLine h).2

theorem plain_cstr {tok : Bytes} (h : NoSpace tok) : ∀ b ∈ (cstr tok).val, Plain b := by
  intro b hb
  have hnul : b ≠ 0 := fun hzero => (cstr tok).property (hzero ▸ hb)
  exact plain_of_not_isSpace (h b ((List.takeWhile_prefix _).subset hb)) hnul

/-- The texts the call stores, or looks up, have no white space. -/
def TokenCall : Call → Prop
  | .registerUser _ _ e | .setEmail _ e => NoSpace e
  | .addPriceAlert _ c _ _ | .modifyPriceAlert _ _ c _ _ => NoSpace c
  | .addTimeAlert _ c t | .modifyTimeAlert _ _ c t => NoSpace c ∧ NoSpace t
  | _ => True

/-- A row of `alerts` whose texts are plain. -/
structure PlainRow (r : AlertRecord) : Prop where
  contract : ∀ b ∈ r.contract.val, Plain b
  triggerTime : ∀ b ∈ r.triggerTime.val, Plain b
  createdAt : ∀ b ∈ r.createdAt.val, Plain b

/-- The texts a call returns are plain. -/
def PlainAnswer : (c : Call) → c.Ans → Prop
  | .getEmail _, email => ∀ b ∈ email.val, Plain b
  | .queryAlerts _ _, records => ∀ r ∈ records, PlainRow r
  | _, _ => True

/-! ## One line -/

/-- A line that begins with OK or ERR. -/
def IsStatus (resp : Bytes) : Prop :=
  (ascii "OK" <+: resp ∨ ascii "ERR" <+: resp) ∧ ∀ b ∈ resp, Plain b

instance (resp : Bytes) : Decidable (IsStatus resp) := inferInstanceAs (Decidable (_ ∧ _))

/-- One such line, and the process goes on. -/
def StatusReply (reply : Reply) : Prop :=
  ∃ resp, reply = ⟨[resp], false⟩ ∧ IsStatus resp

/-- The code answers with one line, and the texts it stores are tokens. -/
abbrev Says (post : (c : Call) → c.Ans → Prop) (h : Handler) : Prop :=
  h.Respects TokenCall post fun out => StatusReply out.2

section

variable {post : (c : Call) → c.Ans → Prop}

theorem says_line {self : Session} {resp : Bytes} (h : IsStatus resp) :
    Says post (self.sendLine resp) := ⟨resp, rfl, h⟩

theorem says_ok_append {self : Session} {rest : Bytes} (h : ∀ b ∈ rest, Plain b) :
    Says post (self.sendLine (ascii "OK " ++ rest)) :=
  says_line ⟨.inl ⟨32 :: rest, rfl⟩, plain_append (by decide) h⟩

theorem says_ask (c : Call) (hc : TokenCall c) {k : c.Ans → Handler}
    (h : ∀ r, post c r → Says post (k r)) : Says post (ask c >>= k) := ⟨hc, h⟩

theorem says_refresh {k : Unit → Handler} (h : Says post (k ())) :
    Says post (refreshPriceAlertCache >>= k) :=
  (refresh_calls trivial (fun _ => trivial) fun _ => trivial).bind fun _ _ => h

theorem says_subscribe (c : Bytes) {k : Unit → Handler} (h : Says post (k ())) :
    Says post (ask (.subscribe c) >>= k) := ⟨trivial, fun _ _ => h⟩

theorem says_ite {b : Prop} [Decidable b] {p q : Handler} (hp : Says post p)
    (hq : Says post q) : Says post (if b then p else q) := by
  split
  · exact hp
  · exact hq

variable (self : Session) (line : Bytes)

theorem handleRegister_saysStatus : Says post (handleRegister self line) := by
  unfold handleRegister
  split
  · rename_i word username password email rest hsplit
    have hemail : NoSpace email := noSpace_of_mem (by rw [hsplit]; simp)
    refine says_ite (says_line (by decide))
      (says_ask (.registerUser username password email) hemail fun uid _ => ?_)
    exact says_ite (says_line (by decide)) (says_line (by decide))
  · exact says_line (by decide)

theorem handleLogin_saysStatus : Says post (handleLogin self line) := by
  unfold handleLogin
  split
  · rename_i username password _ _
    refine says_ask (.verifyLogin username password) trivial fun uid _ => ?_
    refine says_ite (says_line (by decide)) ?_
    exact says_ask (.registerSocket uid self.sock) trivial fun _ _ =>
      says_line (by decide)
  · exact says_line (by decide)

theorem handleAddPrice_saysStatus : Says post (handleAddPrice self line) := by
  unfold handleAddPrice
  refine says_ite (says_line (by decide)) ?_
  split
  · rename_i word user contract price cond rest hsplit
    have hcontract : NoSpace contract := noSpace_of_mem (by rw [hsplit]; simp)
    refine says_ite (says_line (by decide)) ?_
    refine says_ask (.addPriceAlert self.userId contract (atof price) (atoi cond))
      hcontract
      fun id _ => ?_
    refine says_ite (says_line (by decide)) (says_refresh ?_)
    exact says_subscribe contract (says_ok_append (plain_fmtInt _))
  · exact says_line (by decide)

theorem handleAddTime_saysStatus : Says post (handleAddTime self line) := by
  unfold handleAddTime
  refine says_ite (says_line (by decide)) ?_
  split
  · rename_i word user contract timeStr rest hsplit
    have htokens : NoSpace contract ∧ NoSpace timeStr :=
      ⟨noSpace_of_mem (by rw [hsplit]; simp), noSpace_of_mem (by rw [hsplit]; simp)⟩
    refine says_ask (.addTimeAlert self.userId contract timeStr) htokens fun id _ => ?_
    refine says_ite (says_line (by decide)) ?_
    exact says_subscribe contract (says_ok_append (plain_fmtInt _))
  · exact says_line (by decide)

theorem handleDelete_saysStatus : Says post (handleDelete self line) := by
  unfold handleDelete
  refine says_ite (says_line (by decide)) ?_
  split
  · rename_i alertId _ _
    refine says_ask (.deleteAlert (atoi alertId) self.userId) trivial fun ok _ => ?_
    refine says_ite (says_refresh ?_) (says_line (by decide))
    exact says_line (by decide)
  · exact says_line (by decide)

theorem handleModifyPrice_saysStatus : Says post (handleModifyPrice self line) := by
  unfold handleModifyPrice
  refine says_ite (says_line (by decide)) ?_
  split
  · rename_i word alertId contract price cond rest hsplit
    have hcontract : NoSpace contract := noSpace_of_mem (by rw [hsplit]; simp)
    refine says_ite (says_line (by decide)) ?_
    refine says_ask (.modifyPriceAlert (atoi alertId) self.userId contract (atof price)
      (atoi cond)) hcontract fun ok _ => ?_
    refine says_ite (says_refresh ?_) (says_line (by decide))
    exact says_subscribe contract (says_line (by decide))
  · exact says_line (by decide)

theorem handleModifyTime_saysStatus : Says post (handleModifyTime self line) := by
  unfold handleModifyTime
  refine says_ite (says_line (by decide)) ?_
  split
  · rename_i word alertId contract timeStr rest hsplit
    have htokens : NoSpace contract ∧ NoSpace timeStr :=
      ⟨noSpace_of_mem (by rw [hsplit]; simp), noSpace_of_mem (by rw [hsplit]; simp)⟩
    refine says_ask (.modifyTimeAlert (atoi alertId) self.userId contract timeStr) htokens
      fun ok _ => ?_
    refine says_ite (says_refresh ?_) (says_line (by decide))
    exact says_line (by decide)
  · exact says_line (by decide)

theorem handleSetEmail_saysStatus : Says post (handleSetEmail self line) := by
  unfold handleSetEmail
  refine says_ite (says_line (by decide)) ?_
  split
  · rename_i word username password email rest hsplit
    have hemail : NoSpace email := noSpace_of_mem (by rw [hsplit]; simp)
    refine says_ite (says_line (by decide)) ?_
    refine says_ask (.verifyLogin username password) trivial fun uid _ => ?_
    refine says_ite (says_line (by decide)) ?_
    exact says_ask (.setEmail self.userId email) hemail fun ok _ =>
      says_ite (says_line (by decide)) (says_line (by decide))
  · exact says_line (by decide)

theorem handleGetEmail_saysStatus
    (hpost : ∀ uid email, post (.getEmail uid) email → ∀ b ∈ email.val, Plain b) :
    Says post (handleGetEmail self line) := by
  unfold handleGetEmail
  refine says_ite (says_line (by decide)) ?_
  split
  · refine says_ite (says_line (by decide)) ?_
    refine says_ask (.getEmail self.userId) trivial fun email hemail => ?_
    exact says_ok_append (hpost _ _ hemail)
  · exact says_line (by decide)

end

/-! ## Lists -/

/-- A line that begins with ALERT or PRICE. -/
def IsItem (resp : Bytes) : Prop :=
  (ascii "ALERT" <+: resp ∨ ascii "PRICE" <+: resp) ∧ ∀ b ∈ resp, Plain b

/-- Lines of that kind and then END, or one line that begins with ERR, unless the process
ends. -/
def ListReply (reply : Reply) : Prop :=
  reply.ended = false →
    (∃ items, reply.lines = items ++ [ascii "END"] ∧ ∀ resp ∈ items, IsItem resp) ∨
      ∃ resp, reply.lines = [resp] ∧ ascii "ERR" <+: resp ∧ ∀ b ∈ resp, Plain b

/-- The code answers with a list, and the texts it stores are tokens. -/
abbrev Lists (post : (c : Call) → c.Ans → Prop) (h : Handler) : Prop :=
  h.Respects TokenCall post fun out => ListReply out.2

theorem plain_unwords {ws : List Bytes} (h : ∀ s ∈ ws, ∀ b ∈ s, Plain b) :
    ∀ b ∈ unwords ws, Plain b := by
  induction ws with
  | nil => exact List.forall_mem_nil _
  | cons s ws ih =>
      obtain ⟨hs, hws⟩ := List.forall_mem_cons.mp h
      cases ws with
      | nil =>
          rw [unwords, List.intercalate_singleton]
          exact hs
      | cons s' ws =>
          rw [unwords, List.intercalate_cons_cons]
          exact plain_append (plain_append hs (by decide)) (ih hws)

theorem plain_timeOrDash {t : Text} (h : ∀ b ∈ t.val, Plain b) :
    ∀ b ∈ timeOrDash t, Plain b := by
  unfold timeOrDash
  split
  · decide
  · exact h

theorem alertLine_isItem {r : AlertRecord} (hr : PlainRow r) {line : Bytes}
    (h : alertLine r = some line) : IsItem line := by
  obtain rfl := snprintf_eq_some h
  constructor
  · exact .inl ⟨32 :: _, rfl⟩
  · refine plain_unwords ?_
    simp only [List.forall_mem_cons]
    exact ⟨by decide, plain_fmtInt _, plain_fmtInt _, hr.contract, plain_fmtPrice _,
      plain_fmtInt _, plain_timeOrDash hr.triggerTime, plain_fmtInt _, hr.createdAt,
      List.forall_mem_nil _⟩

theorem priceLine_isItem {contract : Bytes} (hcontract : NoSpace contract)
    {lastPrice : Option ℚ} {line : Bytes} (h : priceLine contract lastPrice = some line) :
    IsItem line := by
  obtain rfl := snprintf_eq_some h
  cases lastPrice with
  | none =>
      refine ⟨.inr ⟨32 :: _, rfl⟩, plain_unwords ?_⟩
      simp only [List.forall_mem_cons]
      exact ⟨by decide, plain_cstr hcontract, by decide,
        List.forall_mem_nil _⟩
  | some p =>
      refine ⟨.inr ⟨32 :: _, rfl⟩, plain_unwords ?_⟩
      simp only [List.forall_mem_cons]
      exact ⟨by decide, plain_cstr hcontract, plain_fmtPrice _,
        List.forall_mem_nil _⟩

theorem alertLines_list {records : List AlertRecord} (h : ∀ r ∈ records, PlainRow r)
    (hfit : (alertLines records).ended = false) :
    ∃ items, (alertLines records).lines = items ++ [ascii "END"] ∧
      ∀ resp ∈ items, IsItem resp := by
  induction records with
  | nil => exact ⟨[], rfl, List.forall_mem_nil _⟩
  | cons r rest ih =>
      obtain ⟨hr, hrest⟩ := List.forall_mem_cons.mp h
      rw [alertLines] at hfit ⊢
      cases hline : alertLine r with
      | none => simp [hline] at hfit
      | some line =>
          rw [hline] at hfit
          obtain ⟨items, hitems, hall⟩ := ih hrest hfit
          refine ⟨line :: items, ?_,
            List.forall_mem_cons.mpr ⟨alertLine_isItem hr hline, hall⟩⟩
          rw [List.cons_append, ← hitems]

section

variable {post : (c : Call) → c.Ans → Prop} (self : Session) (line : Bytes)

theorem lists_error {resp : Bytes} (h : ascii "ERR" <+: resp ∧ ∀ b ∈ resp, Plain b) :
    Lists post (self.sendLine resp) := fun _ => .inr ⟨resp, rfl, h⟩

theorem getPricesLoop_lists {contracts : List Bytes}
    (htokens : ∀ c ∈ contracts, NoSpace c)
    {sent : List Bytes} (hsent : ∀ resp ∈ sent, IsItem resp) :
    Lists post (getPricesLoop self contracts sent) := by
  induction contracts generalizing sent with
  | nil => exact fun _ => .inl ⟨sent, rfl, hsent⟩
  | cons c rest ih =>
      obtain ⟨hc, hrest⟩ := List.forall_mem_cons.mp htokens
      by_cases hne : c = []
      · rw [getPricesLoop, if_pos hne]
        exact ih hrest hsent
      · rw [getPricesLoop_cons self hne]
        refine ⟨trivial, fun _ _ => ⟨trivial, fun lastPrice _ => ?_⟩⟩
        beta_reduce
        cases hline : priceLine c lastPrice with
        | none => exact fun h => Bool.noConfusion h
        | some line =>
            refine ih hrest (List.forall_mem_append.mpr ⟨hsent, ?_⟩)
            exact List.forall_mem_singleton.mpr (priceLine_isItem hc hline)

theorem handleQuery_lists
    (hpost : ∀ uid status records, post (.queryAlerts uid status) records →
      ∀ r ∈ records, PlainRow r) :
    Lists post (handleQuery self line) := by
  unfold handleQuery
  split
  · exact lists_error self (by decide)
  · split
    · refine ⟨trivial, fun records hrecords hfit => ?_⟩
      exact .inl (alertLines_list (hpost _ _ _ hrecords) hfit)
    · exact lists_error self (by decide)

theorem handleGetPrices_lists : Lists post (handleGetPrices self line) := by
  unfold handleGetPrices
  split
  · exact lists_error self (by decide)
  · split
    · rename_i word contract rest hsplit
      refine getPricesLoop_lists self (fun c hc => ?_) (List.forall_mem_nil _)
      exact noSpace_of_mem (hsplit ▸ List.mem_cons_of_mem word hc)
    · exact lists_error self (by decide)

theorem dispatch_query (h : commandWord line = ascii "QUERY") :
    dispatch self line = handleQuery self line := by
  unfold dispatch
  rw [h]
  rfl

theorem dispatch_getPrices (h : commandWord line = ascii "GET_PRICE" ∨
      commandWord line = ascii "GET_PRICES") :
    dispatch self line = handleGetPrices self line := by
  unfold dispatch
  rcases h with h | h <;> rw [h] <;> rfl

/-- The command is answered with a list. -/
def AnswersList (line : Bytes) : Prop :=
  commandWord line = ascii "QUERY" ∨ commandWord line = ascii "GET_PRICE" ∨
    commandWord line = ascii "GET_PRICES"

theorem dispatch_lists (h : AnswersList line) :
    Lists PlainAnswer (dispatch self line) := by
  rcases h with h | h
  · rw [dispatch_query self line h]
    exact handleQuery_lists self line fun _ _ _ hrecords => hrecords
  · rw [dispatch_getPrices self line h]
    exact handleGetPrices_lists self line

theorem dispatch_saysStatus (h : ¬ AnswersList line) :
    Says PlainAnswer (dispatch self line) :=
  dispatch_rule (P := Says PlainAnswer) self line
  (fun _ => handleRegister_saysStatus self line)
    (fun _ => handleLogin_saysStatus self line)
    (fun _ => handleAddPrice_saysStatus self line)
    (fun _ => handleAddTime_saysStatus self line)
    (fun _ => handleDelete_saysStatus self line)
    (fun _ => handleModifyPrice_saysStatus self line)
    (fun _ => handleModifyTime_saysStatus self line)
    (fun hword => absurd (.inl hword) h) (fun _ => handleSetEmail_saysStatus self line)
    (fun _ => handleGetEmail_saysStatus self line fun _ _ hemail => hemail)
    (fun hword => absurd (.inr hword) h) (says_line (by decide))

/-- A handler stores tokens only. -/
theorem dispatch_tokens :
    (dispatch self line).Respects TokenCall PlainAnswer fun _ => True := by
  by_cases h : AnswersList line
  · exact (dispatch_lists self line h).mono (fun _ hc => hc) (fun _ _ _ hr => hr)
      fun _ _ => trivial
  · exact (dispatch_saysStatus self line h).mono (fun _ hc => hc) (fun _ _ _ hr => hr)
      fun _ _ => trivial

end

end CloudAlert
