import CloudAlert.Engine.Reference
import CloudAlert.Session.Replies

/-!
# Texts and their buffers

Five texts are printed into buffers of a fixed size, and one that does not fit ends the
process. `Overflows` says that this happens in an event, `TooLong` gives the lengths at
which it does, in terms of the rows and the tokens before the event, and
`overflows_iff` says that the two agree. The e-mail body needs no condition of its own:
it fits when the TRIGGERED line does (`mailBody_fits`).
-/

namespace CloudAlert

open Program

/-! ## The five texts -/

/-- The width of a time column as it is printed, with `-` for an empty one. -/
def timeWidth (t : Text) : ℕ := max 1 t.val.length

/-- The width of the ALERT line. -/
def alertWidth (r : AlertRecord) : ℕ :=
  intWidth r.id + intWidth r.alertType + r.contract.val.length + priceWidth
    r.triggerPrice +
    intWidth r.condition + timeWidth r.triggerTime + intWidth r.status +
    r.createdAt.val.length + 13

/-- The width of the PRICE line. -/
def priceLineWidth (contract : Bytes) (lastPrice : Option ℚ) : ℕ :=
  (cstr contract).val.length + lastPrice.elim 1 priceWidth + 7

/-- The width of the TRIGGERED line, with its line break. -/
def triggeredWidth (r : AlertRecord) (lastPrice : ℚ) (now : LocalTime) : ℕ :=
  intWidth r.id + intWidth r.alertType + r.contract.val.length + priceWidth lastPrice +
    intWidth r.condition + priceWidth r.triggerPrice + timeWidth r.triggerTime +
    stampWidth now + 18

theorem timeOrDash_length (t : Text) : (timeOrDash t).length = timeWidth t := by
  unfold timeOrDash timeWidth
  split
  · rename_i hempty
    rw [hempty]
    rfl
  · rename_i hne
    have hpos : 0 < t.val.length := List.length_pos_of_ne_nil fun h => hne (Subtype.ext h)
    exact (Nat.max_eq_right hpos).symm

theorem alertLine_eq_none (r : AlertRecord) :
    alertLine r = none ↔ 512 ≤ alertWidth r := by
  have hword : (ascii "ALERT").length = 5 := rfl
  rw [alertLine, snprintf_eq_none]
  simp only [unwords, List.intercalate, List.intersperse, List.flatten_cons,
    List.flatten_nil, List.length_append, List.length_cons, List.length_nil,
    hword, fmtInt_length, fmtPrice_length, timeOrDash_length, alertWidth]
  omega

theorem priceLine_eq_none (contract : Bytes) (lastPrice : Option ℚ) :
    priceLine contract lastPrice = none ↔ 256 ≤ priceLineWidth contract lastPrice := by
  have hword : (ascii "PRICE").length = 5 := rfl
  have hdash : (ascii "-").length = 1 := rfl
  unfold priceLine
  rw [snprintf_eq_none]
  cases lastPrice with
  | none =>
      simp only [unwords, List.intercalate, List.intersperse, List.flatten_cons,
        List.flatten_nil, List.length_append, List.length_cons,
        List.length_nil, hword, hdash, priceLineWidth, Option.elim_none]
      omega
  | some p =>
      simp only [unwords, List.intercalate, List.intersperse, List.flatten_cons,
        List.flatten_nil, List.length_append, List.length_cons, List.length_nil, hword,
        fmtPrice_length, priceLineWidth, Option.elim_some]
      omega

section

variable (r : AlertRecord) (p : ℚ) (now : LocalTime)

theorem triggeredLine_eq_none :
    triggeredLine r p now.stamp = none ↔ 512 ≤ triggeredWidth r p now := by
  have hword : (ascii "TRIGGERED").length = 9 := rfl
  rw [triggeredLine, snprintf_eq_none]
  simp only [unwords, List.intercalate, List.intersperse, List.flatten_cons,
    List.flatten_nil, List.length_append, List.length_cons, List.length_nil,
    hword, fmtInt_length, fmtPrice_length, timeOrDash_length,
    LocalTime.stamp_length, triggeredWidth]
  omega

theorem mailSubject_eq_none : mailSubject r = none ↔ 242 ≤ r.contract.val.length := by
  rw [mailSubject, snprintf_eq_none]
  split
  · simp only [List.length_append, List.length_cons, List.length_nil]
    omega
  · simp only [List.length_append, List.length_cons, List.length_nil]
    omega

/-- The body has half the room to spare that the TRIGGERED line has not. -/
theorem mailBody_fits (h : triggeredWidth r p now < 512) :
    mailBody r p now.stamp ≠ none := by
  have hcondition : (conditionText r.condition).length = 2 := by
    unfold conditionText
    split <;> rfl
  rw [mailBody, Ne, snprintf_eq_none]
  unfold triggeredWidth at h
  split
  · simp only [List.length_append, List.length_cons, List.length_nil, hcondition,
      fmtInt_length, fmtPrice_length, LocalTime.stamp_length]
    omega
  · simp only [List.length_append, List.length_cons, List.length_nil, fmtInt_length,
      fmtPrice_length, timeOrDash_length, LocalTime.stamp_length]
    omega

/-- The notification of an alert does not fit. -/
def NoticeTooLong : Prop :=
  512 ≤ triggeredWidth r p now ∨ 242 ≤ r.contract.val.length

theorem notice_eq_none (db : AlertDB) :
    notice db r p now.stamp = none ↔ NoticeTooLong r p now := by
  unfold NoticeTooLong
  rw [← triggeredLine_eq_none, ← mailSubject_eq_none, notice]
  cases htriggered : triggeredLine r p now.stamp with
  | none => exact iff_of_true rfl (.inl rfl)
  | some msg =>
      have hbody := mailBody_fits r p now (Nat.lt_of_not_le fun h => by
        rw [(triggeredLine_eq_none r p now).mpr h] at htriggered
        cases htriggered)
      obtain ⟨body, hbody⟩ := Option.ne_none_iff_exists'.mp hbody
      rw [hbody]
      cases mailSubject r with
      | none => exact iff_of_true rfl (.inr rfl)
      | some subject => exact iff_of_false nofun (by simp)

end

/-! ## Command lines -/

/-- The loop of `HandleQuery` ends the process at a row that does not fit. -/
theorem alertLines_ended (records : List AlertRecord) :
    (alertLines records).ended = true ↔ ∃ r ∈ records, 512 ≤ alertWidth r := by
  induction records with
  | nil => exact iff_of_false Bool.false_ne_true (by simp)
  | cons r rest ih =>
      rw [List.exists_mem_cons_iff, ← alertLine_eq_none, alertLines]
      cases alertLine r with
      | none => exact iff_of_true rfl (.inl rfl)
      | some line =>
          rw [← ih]
          exact ⟨.inr, fun h => h.resolve_left (Option.some_ne_none line)⟩

theorem getPricesLoop_ended (self : Session) (contracts : List Bytes)
    (htokens : ∀ c ∈ contracts, c ≠ []) (sent : List Bytes) (w : World) :
    (run exec (getPricesLoop self contracts sent) w).1.2.ended = true ↔
      ∃ c ∈ contracts, 256 ≤ priceLineWidth c (w.lastPrices c) := by
  induction contracts generalizing sent w with
  | nil => exact iff_of_false Bool.false_ne_true (by simp)
  | cons c rest ih =>
      obtain ⟨hne, hrest⟩ := List.forall_mem_cons.mp htokens
      have hprices : (exec (.subscribe c) w).2.lastPrices = w.lastPrices := by
        simp only [exec, execWith]
        split <;> rfl
      rw [List.exists_mem_cons_iff, ← priceLine_eq_none, getPricesLoop_cons self hne]
      change (run exec ((priceLine c ((exec (.subscribe c) w).2.lastPrices c)).elim
        (.ret (self, ⟨sent, true⟩)) fun line => getPricesLoop self rest (sent ++ [line]))
        (exec (.subscribe c) w).2).1.2.ended = true ↔ _
      rw [hprices]
      cases hline : priceLine c (w.lastPrices c) with
      | none => exact iff_of_true rfl (.inl rfl)
      | some line =>
          have htail := ih hrest (sent ++ [line]) (exec (.subscribe c) w).2
          rw [hprices] at htail
          exact htail.trans ⟨.inr, fun h => h.resolve_left (Option.some_ne_none line)⟩

/-- A line of the session is answered with a text that does not fit. -/
def LineTooLong (w : World) (self : Session) (line : Bytes) : Prop :=
  0 ≤ self.userId ∧
    ((commandWord line = ascii "QUERY" ∧
        ∃ word user status rest, splitLine line = word :: user :: status :: rest ∧
          ∃ r ∈ w.db.queryAlerts .none self.userId (atoi status), 512 ≤ alertWidth r) ∨
      ((commandWord line = ascii "GET_PRICE" ∨ commandWord line = ascii "GET_PRICES") ∧
        ∃ c ∈ (splitLine line).tail, 256 ≤ priceLineWidth c (w.lastPrices c)))

section

variable (self : Session) (line : Bytes) (w : World)

theorem ended_of_saysStatus {h : Handler}
    (hreply : Says (fun _ _ => True) h) : (run exec h w).1.2.ended = false := by
  obtain ⟨-, resp, hreply, -⟩ := hreply.run (fun _ => True)
    (fun _ _ _ _ => ⟨trivial, trivial⟩) (s := w) trivial
  rw [hreply]

theorem dispatch_goes_on (h : ¬ AnswersList line) :
    (run exec (dispatch self line) w).1.2.ended = false := by
  refine dispatch_rule (P := fun h => (run exec h w).1.2.ended = false) self line
    (fun _ => ended_of_saysStatus w (handleRegister_saysStatus self line))
    (fun _ => ended_of_saysStatus w (handleLogin_saysStatus self line))
    (fun _ => ended_of_saysStatus w (handleAddPrice_saysStatus self line))
    (fun _ => ended_of_saysStatus w (handleAddTime_saysStatus self line))
    (fun _ => ended_of_saysStatus w (handleDelete_saysStatus self line))
    (fun _ => ended_of_saysStatus w (handleModifyPrice_saysStatus self line))
    (fun _ => ended_of_saysStatus w (handleModifyTime_saysStatus self line))
    (fun hword => absurd (.inl hword) h)
    (fun _ => ended_of_saysStatus w (handleSetEmail_saysStatus self line)) (fun _ => ?_)
    (fun hword => absurd (.inr hword) h) rfl
  -- the e-mail address is sent as it is
  unfold handleGetEmail
  split
  · rfl
  · split
    · split <;> rfl
    · rfl

theorem handleQuery_ended (hword : commandWord line = ascii "QUERY") :
    (run exec (handleQuery self line) w).1.2.ended = true ↔ LineTooLong w self line := by
  have hother : ¬ (commandWord line = ascii "GET_PRICE" ∨
      commandWord line = ascii "GET_PRICES") := by
    rw [hword]
    decide
  unfold handleQuery LineTooLong
  split
  · rename_i hself
    exact iff_of_false nofun fun h => absurd h.1 (not_le.mpr hself)
  · rename_i hself
    split
    · rename_i word user status rest htokens
      refine (alertLines_ended _).trans ⟨fun h => ?_, ?_⟩
      · exact ⟨not_lt.mp hself, .inl ⟨hword, word, user, status, rest, htokens, h⟩⟩
      · rintro ⟨-, ⟨-, word', user', status', rest', htokens', h⟩ | ⟨hget, -⟩⟩
        · obtain ⟨rfl, rfl, rfl, rfl⟩ :
              word = word' ∧ user = user' ∧ status = status' ∧ rest = rest' := by
            simpa [htokens] using htokens'
          exact h
        · exact absurd hget hother
    · rename_i hshort
      refine iff_of_false nofun ?_
      rintro ⟨-, ⟨-, word, user, status, rest, htokens, -⟩ | ⟨hget, -⟩⟩
      · exact hshort word user status rest htokens
      · exact hother hget

theorem handleGetPrices_ended (hword : commandWord line = ascii "GET_PRICE" ∨
      commandWord line = ascii "GET_PRICES") :
    (run exec (handleGetPrices self line) w).1.2.ended = true ↔
    LineTooLong w self line := by
  have hother : commandWord line ≠ ascii "QUERY" := by
    rcases hword with h | h <;> rw [h] <;> decide
  have htokens : ∀ c ∈ (splitLine line).tail, c ≠ [] := fun c hc =>
    ne_nil_of_mem_splitLine (List.mem_of_mem_tail hc)
  unfold handleGetPrices LineTooLong
  split
  · rename_i hself
    exact iff_of_false nofun fun h => absurd h.1 (not_le.mpr hself)
  · rename_i hself
    split
    · rename_i word contract rest hsplit
      rw [hsplit] at htokens ⊢
      refine (getPricesLoop_ended self _ htokens [] w).trans ⟨fun h => ?_, ?_⟩
      · exact ⟨not_lt.mp hself, .inr ⟨hword, h⟩⟩
      · rintro ⟨-, ⟨hquery, -⟩ | ⟨-, h⟩⟩
        · exact absurd hquery hother
        · exact h
    · rename_i hshort
      refine iff_of_false nofun ?_
      rintro ⟨-, ⟨hquery, -⟩ | ⟨-, c, hc, -⟩⟩
      · exact hother hquery
      · cases hsplit : splitLine line with
        | nil => simp [hsplit] at hc
        | cons word rest =>
            cases rest with
            | nil => simp [hsplit] at hc
            | cons contract rest => exact hshort word contract rest hsplit

/-- A command line ends the process exactly if it is answered with a text that does not
fit. -/
theorem dispatch_ended :
    (run exec (dispatch self line) w).1.2.ended = true ↔ LineTooLong w self line := by
  by_cases hlist : AnswersList line
  · rcases hlist with hword | hword
    · rw [dispatch_query self line hword, handleQuery_ended self line w hword]
    · rw [dispatch_getPrices self line hword, handleGetPrices_ended self line w hword]
  · rw [dispatch_goes_on self line w hlist]
    refine iff_of_false nofun ?_
    rintro ⟨-, ⟨hword, -⟩ | ⟨hword, -⟩⟩
    · exact hlist (.inl hword)
    · exact hlist (.inr hword)

end

/-! ## Checks -/

/-- One of the alerts in `due`, notified in this order at the times of `clock`, has a
notification that does not fit. -/
def SomeNoticeTooLong (due : List AlertRecord) (price : AlertRecord → ℚ)
    (clock : ℕ → LocalTime) : Prop :=
  ∃ k r, due[k]? = some r ∧ NoticeTooLong r (price r) (clock k)

theorem not_someNoticeTooLong_nil {price : AlertRecord → ℚ} {clock : ℕ → LocalTime} :
    ¬ SomeNoticeTooLong [] price clock := by
  rintro ⟨k, r, hr, -⟩
  cases hr

theorem someNoticeTooLong_cons {r : AlertRecord} {rest : List AlertRecord}
    {price : AlertRecord → ℚ} {clock : ℕ → LocalTime} :
    SomeNoticeTooLong (r :: rest) price clock ↔ NoticeTooLong r (price r) (clock 0) ∨
      SomeNoticeTooLong rest price fun k => clock (k + 1) := by
  constructor
  · rintro ⟨k, r', hr', hlong⟩
    cases k with
    | zero =>
        obtain rfl := Option.some.inj hr'
        exact .inl hlong
    | succ k => exact .inr ⟨k, r', hr', hlong⟩
  · rintro (hlong | ⟨k, r', hr', hlong⟩)
    · exact ⟨0, r, rfl, hlong⟩
    · exact ⟨k + 1, r', hr', hlong⟩

/-- One round that has triggered its alert: the process ends with the notification of the
alert or in what follows. -/
theorem round_ended {rec : AlertRecord} {p : ℚ} {now : LocalTime} {w : World}
    {next : Action Bool} {later : Prop}
    (hnext : ∀ task, (run exec next (w.notified task)).1 = false ↔ later) :
    (if (run exec (fireAlert rec p now.stamp) w).1 = true then
        run exec next (run exec (fireAlert rec p now.stamp) w).2
      else (false, (run exec (fireAlert rec p now.stamp) w).2)).1 = false ↔
      NoticeTooLong rec p now ∨ later := by
  rw [run_fireAlert, ← notice_eq_none rec p now w.db]
  cases notice w.db rec p now.stamp with
  | none => exact iff_of_true rfl (.inl rfl)
  | some task => exact (hnext task).trans ⟨.inr, fun h => h.resolve_left nofun⟩

/-- A price check over pending rows ends the process exactly if one of the alerts it fires
has a notification that does not fit. -/
theorem checkPriceLoop_ended {p : ℚ} {todo : List AlertRecord} {w : World}
    (htodo : ∀ r ∈ todo, r ∈ w.db.alerts.rows ∧ r.status = 0) (hnodup : todo.Nodup) :
    (run exec (checkPriceLoop p todo) w).1 = false ↔
      SomeNoticeTooLong (todo.filter fun r => fires r p) (fun _ => p) w.clock := by
  induction todo generalizing w with
  | nil => exact iff_of_false nofun not_someNoticeTooLong_nil
  | cons rec rest ih =>
      obtain ⟨hrec, hrest⟩ := List.nodup_cons.mp hnodup
      have htail := fun r hr => htodo r (List.mem_cons_of_mem rec hr)
      by_cases hfires : fires rec p
      · obtain ⟨hmem, hpending⟩ := htodo rec List.mem_cons_self
        rw [List.filter_cons_of_pos (p := fun r => fires r p) hfires,
          someNoticeTooLong_cons, run_checkPriceLoop_cons hfires]
        dsimp only
        have htrue : (exec (.triggerAlert rec (w.clock 0).stamp) w.tickClock).1 = true :=
          triggerAlert_true.mpr ⟨rec, hmem, rfl, hpending⟩
        have hone : RowTriggered rec (w.clock 0).stamp w _ :=
          (rowTriggered_triggerAlert hmem hpending _).remove rec.id
        rw [if_pos htrue]
        exact round_ended fun task => ih (w := World.notified _ task)
          (hone.others hrec htail) hrest
      · rw [checkPriceLoop_skip hfires,
          List.filter_cons_of_neg (p := fun r => fires r p) hfires]
        exact ih htail hrest

theorem checkTimeLoop_ended {todo : List AlertRecord} {w : World}
    (htodo : ∀ r ∈ todo, r ∈ w.db.alerts.rows ∧ r.status = 0) (hnodup : todo.Nodup) :
    (run exec (checkTimeLoop todo) w).1 = false ↔
      SomeNoticeTooLong todo (fun r => (w.lastPrices r.contract.val).getD 0) w.clock := by
  induction todo generalizing w with
  | nil => exact iff_of_false nofun not_someNoticeTooLong_nil
  | cons rec rest ih =>
      obtain ⟨hrec, hrest⟩ := List.nodup_cons.mp hnodup
      have htail := fun r hr => htodo r (List.mem_cons_of_mem rec hr)
      obtain ⟨hmem, hpending⟩ := htodo rec List.mem_cons_self
      rw [someNoticeTooLong_cons, run_checkTimeLoop_cons]
      dsimp only
      have htrue : (exec (.triggerAlert rec (w.clock 0).stamp) w.tickClock).1 = true :=
        triggerAlert_true.mpr ⟨rec, hmem, rfl, hpending⟩
      have hone := rowTriggered_triggerAlert hmem hpending (w.clock 0).stamp
      rw [if_pos htrue, hone.lastPrices]
      refine round_ended fun task => (ih
        (w := (exec (.triggerAlert rec (w.clock 0).stamp) w.tickClock).2.notified task)
        (hone.others hrec htail) hrest).trans ?_
      have hprices : ((exec (.triggerAlert rec (w.clock 0).stamp)
          w.tickClock).2.notified task).lastPrices = w.lastPrices := hone.lastPrices
      rw [hprices]
      rfl

/-! ## Events -/

/-- The event ends the process at a text that does not fit. -/
def Overflows (s : Server) : Event → Prop
  | .line sock line => ∃ self, s.sessions sock = some self ∧
      (run exec (dispatch self line) s.world).1.2.ended = true
  | .tick contract lastPrice =>
      (run exec (checkPriceAlert contract lastPrice) s.world).1 = false
  | .timerCheck => (run exec checkTimeAlerts s.world).1 = false
  | _ => False

/-- One of the texts of the event is longer than its buffer. -/
def TooLong (s : Server) : Event → Prop
  | .line sock line => ∃ self, s.sessions sock = some self ∧ LineTooLong s.world self line
  | .tick contract lastPrice =>
      SomeNoticeTooLong (s.world.db.alerts.select (duePrice contract lastPrice))
        (fun _ => lastPrice) s.world.clock
  | .timerCheck =>
      SomeNoticeTooLong (s.world.db.alerts.select (dueTime (s.world.clock 0).hms))
        (fun r => (s.world.lastPrices r.contract.val).getD 0) fun k =>
        s.world.clock (k + 1)
  | _ => False

theorem overflows_iff {s : Server} (h : Coherent s.world) (e : Event) :
    Overflows s e ↔ TooLong s e := by
  cases e with
  | line sock line =>
      exact exists_congr fun self => and_congr_right fun _ => dispatch_ended ..
  | tick contract p =>
      obtain ⟨htodo, hnodup⟩ := h.cached contract
      rw [← World.priced_db s.world contract p] at htodo
      have hclock : (s.world.priced contract p).clock = s.world.clock := by
        unfold World.priced
        split <;> rfl
      simp only [Overflows, TooLong]
      rw [run_checkPriceAlert, checkPriceLoop_ended htodo hnodup, filter_fires h, hclock]
  | timerCheck =>
      simp only [Overflows, TooLong]
      rw [run_checkTimeAlerts]
      exact checkTimeLoop_ended (w := s.world.tickClock)
        (fun r hr => (mem_select_dueTime hr).1) (s.world.db.alerts.nodup_rows.filter _)
  | _ => exact Iff.rfl

/-- Every text of a history fits its buffer exactly if no event of the history has a text
that is longer. -/
theorem textsFit_iff (db : AlertDB) (clock : ℕ → LocalTime) (marketData : Bool)
    (history : List Event) :
    (∀ es e es' s, history = es ++ e :: es' →
        serveAll exec (.off db clock) (.startUp marketData :: es) = some s →
        ¬ Overflows s e) ↔
      ∀ es e es' s, history = es ++ e :: es' →
        serveAll exec (.off db clock) (.startUp marketData :: es) = some s →
        ¬ TooLong s e := by
  have hcoherent :
      ∀ es s, serveAll exec (.off db clock) (.startUp marketData :: es) = some s →
      Coherent s.world := fun es s hs =>
    serveAll_invariant (fun s e s' h hserve => (serve_spec h hserve).1)
      (s := ⟨_, fun _ => none⟩) (coherent_refresh (World.fresh db marketData clock)) hs
  refine forall₄_congr fun es e es' s => forall₂_congr fun _ hs => ?_
  rw [overflows_iff (hcoherent es s hs)]

/-- A time alert for a contract of 242 bytes, and the check that is to notify it. -/
def longContract : List Event :=
  [.connect 7, .line 7 (ascii "REGISTER ann pw a@b"), .line 7 (ascii "LOGIN ann pw"),
    .line 7 (ascii "ADD_TIME ann " ++ List.replicate 242 120 ++ ascii " 09:30:00"),
    .timerCheck]

set_option maxRecDepth 10000 in
/-- The alert is accepted, and its e-mail subject ends the process. -/
theorem long_contract_overflows :
    (∀ sock line, .line sock line ∈ longContract → line.length ≤ 4096) ∧
      ¬ ∀ es e es' s, longContract = es ++ e :: es' →
        serveAll exec (.off .created fun _ => ⟨2025, 6, 0, 9, 30, 0⟩)
          (.startUp true :: es) =
          some s → ¬ Overflows s e := by
  constructor
  · intro sock line hline
    simp only [longContract, List.mem_cons, Event.line.injEq, reduceCtorEq,
      List.not_mem_nil, or_false, false_or] at hline
    rcases hline with ⟨-, rfl⟩ | ⟨-, rfl⟩ | ⟨-, rfl⟩ <;> decide +kernel
  · intro hfit
    have hstate : ((serveAll exec (.off .created fun _ => ⟨2025, 6, 0, 9, 30, 0⟩)
        (.startUp true :: longContract.dropLast)).map fun s =>
          (run exec checkTimeAlerts s.world).1) = some false := by decide +kernel
    obtain ⟨s, hs, hended⟩ := Option.map_eq_some_iff.mp hstate
    exact hfit longContract.dropLast .timerCheck [] s rfl hs hended

end CloudAlert
