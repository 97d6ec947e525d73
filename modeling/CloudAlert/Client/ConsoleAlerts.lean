import CloudAlert.Client.ConsoleLogin
import CloudAlert.Text.Numerals

/-!
# The alerts of the console

A price is typed at the console, printed with four decimals into the command and read
again by the session. `console_adds_alert` follows it there: the row that the command
leaves is that of the user whose name the console shows, with the terms that were typed
and the price rounded to four decimals.
-/

namespace CloudAlert

open Program

/-! ## Four decimals -/

/-- The number of ten-thousandths that `%.4f` prints. -/
def tenThousandths (x : ℚ) : ℕ := roundHalfEven (|x| * 10000)

/-- The price after `%.4f`. -/
def rounded4 (x : ℚ) : ℚ :=
  if x < 0 then -(tenThousandths x / 10000) else tenThousandths x / 10000

/-- What `%.4f` prints after the sign. -/
def priceDigits4 (n : ℕ) : Bytes := fmtNat (n / 10000) ++ 46 :: pad4 (n % 10000)

theorem fmtPrice4_eq (x : ℚ) :
    fmtPrice4 x = (if x < 0 then [45] else []) ++ priceDigits4 (tenThousandths x) :=
  List.append_assoc _ _ _

theorem isDigit_of_mem_pad4 {n : ℕ} {b : UInt8} (h : b ∈ pad4 n) : isDigit b := by
  rcases List.mem_append.mp h with h | h
  · exact isDigit_of_mem_pad2 h
  · exact isDigit_of_mem_pad2 h

theorem isToken_fmtPrice4 (x : ℚ) : IsToken (fmtPrice4 x) := by
  rw [fmtPrice4_eq]
  refine ⟨?_, List.forall_mem_append.mpr ⟨?_, fun b hb => ?_⟩⟩
  · refine fun hnil => absurd (List.append_eq_nil_iff.mp hnil).2 ?_
    exact fun hdigits => absurd (List.append_eq_nil_iff.mp hdigits).2
      (List.cons_ne_nil _ _)
  · split
    · exact List.forall_mem_singleton.mpr rfl
    · exact List.forall_mem_nil _
  · rcases List.mem_append.mp hb with hb | hb
    · exact not_isSpace_of_isDigit (isDigit_of_mem_fmtNat hb)
    · rcases List.mem_cons.mp hb with rfl | hb
      · rfl
      · exact not_isSpace_of_isDigit (isDigit_of_mem_pad4 hb)

theorem takeSign_fmtPrice4 (x : ℚ) :
    takeSign (fmtPrice4 x) = (decide (x < 0), priceDigits4 (tenThousandths x)) := by
  have hfront : takeSign (priceDigits4 (tenThousandths x)) =
      (false, priceDigits4 (tenThousandths x)) := by
    unfold priceDigits4
    cases hprinted : fmtNat (tenThousandths x / 10000) with
    | nil => exact absurd hprinted (fmtNat_ne_nil _)
    | cons b rest =>
        exact takeSign_of_digit (isDigit_of_mem_fmtNat (hprinted ▸ List.mem_cons_self))
  rw [fmtPrice4_eq]
  split
  · rename_i hneg
    rw [decide_eq_true hneg]
    rfl
  · rename_i hneg
    rw [decide_eq_false hneg, List.nil_append, hfront]

theorem decimal_tenThousandths (n : ℕ) :
    decimal (fmtNat (n / 10000) ++ pad4 (n % 10000)) = n := by
  have hhigh : n % 10000 / 100 < 100 := by omega
  have hlow : n % 10000 % 100 < 100 := Nat.mod_lt _ (by decide)
  rw [pad4, ← List.append_assoc, decimal_append_pad2 _ hlow, decimal_append_pad2 _ hhigh,
    decimal_fmtNat]
  omega

theorem scale_pad4 (x : ℚ) (m : ℕ) :
    x * 10 ^ ((0 : ℤ) - (pad4 m).length) = x / 10000 := by
  rw [show ((0 : ℤ) - (pad4 m).length) = -4 from rfl, zpow_neg, div_eq_mul_inv]
  norm_num

/-- The session reads the price that was printed. -/
theorem atof_fmtPrice4 (x : ℚ) : atof (fmtPrice4 x) = rounded4 x := by
  have hfront : ∀ b ∈ (fmtPrice4 x).head?, isSpace b = false := fun b hb =>
    (isToken_fmtPrice4 x).2 b (List.mem_of_mem_head? hb)
  have hpoint := takeWhile_digits (s := fmtNat (tenThousandths x / 10000))
    (fun _ => isDigit_of_mem_fmtNat) (pad4 (tenThousandths x % 10000))
  have hdigits : ∀ b ∈ pad4 (tenThousandths x % 10000), isDigit b :=
    fun _ => isDigit_of_mem_pad4
  unfold atof rounded4
  rw [cstr_of_plain (plain_fmtPrice4 x), dropWhile_isSpace hfront, takeSign_fmtPrice4]
  unfold priceDigits4
  dsimp only
  rw [hpoint.1, hpoint.2, takeFraction, List.takeWhile_eq_self_iff.mpr hdigits,
    List.dropWhile_eq_nil_iff.mpr hdigits, if_neg fun h => List.cons_ne_nil _ _ h.2]
  dsimp only [takeExponent]
  rw [decimal_tenThousandths, scale_pad4]
  simp only [decide_eq_true_eq]

/-- At most half of a ten-thousandth is lost. -/
theorem abs_rounded4_sub (x : ℚ) : |rounded4 x - x| ≤ 1 / 20000 := by
  have hscaled : (0 : ℚ) ≤ |x| * 10000 := mul_nonneg (abs_nonneg x) (by norm_num)
  have hnear := abs_le.mp (abs_roundHalfEven_sub hscaled)
  unfold rounded4 tenThousandths
  split
  · rename_i hneg
    rw [abs_of_neg hneg] at hnear ⊢
    rw [abs_le]
    constructor <;> linarith
  · rename_i hnonneg
    rw [abs_of_nonneg (not_lt.mp hnonneg)] at hnear ⊢
    rw [abs_le]
    constructor <;> linarith

/-! ## The command -/

variable {self : Session} {w : World}

theorem splitLine_addPrice {user contract : Field} {price : ℚ} {cond : ℤ}
    (huser : IsToken user.val) (hcontract : IsToken contract.val) :
    splitLine (ClientCommand.addPrice user contract (priceField price) cond).text =
      [ascii "ADD_PRICE", user.val, contract.val, fmtPrice4 price, fmtInt cond] := by
  refine splitLine_unwords ?_
  simp only [ClientCommand.word, ClientCommand.arguments, List.forall_mem_cons]
  exact ⟨⟨by decide, by decide +kernel⟩, huser, hcontract, isToken_fmtPrice4 _,
    isToken_fmtInt _, List.forall_mem_nil _⟩

/-- The row the command is to leave. -/
def typedRow (w : World) (owner : Session) (contract : Field) (price : ℚ) (cond : ℤ) :
    AlertRecord :=
  AlertDB.priceRow owner.userId contract.val (rounded4 price) cond (w.clock 0).stamp
    (w.db.alerts.seq + 1)

/-- The alert is stored and armed, and its contract subscribed. -/
structure AlertAdded (w : World) (owner : Session) (contract : Field)
    (price : ℚ) (cond : ℤ) (w' : World) : Prop where
  rows : w'.db.alerts.rows = w.db.alerts.rows ++ [typedRow w owner contract price cond]
  armed : typedRow w owner contract price cond ∈ w'.priceAlertCache.at (cstr contract.val)
  subscribed : w.marketData = true → (cstr contract.val).val ∈ w'.subscribed

theorem exec_subscribe (contract : Bytes) (w : World) :
    (exec (.subscribe contract) w).2.db = w.db ∧
      (exec (.subscribe contract) w).2.priceAlertCache = w.priceAlertCache ∧
      (w.marketData = true →
        (cstr contract).val ∈ (exec (.subscribe contract) w).2.subscribed) := by
  simp only [exec, execWith]
  split
  · exact ⟨rfl, rfl, fun _ => List.mem_append_right _ List.mem_cons_self⟩
  · rename_i hnone
    exact ⟨rfl, rfl, fun hmarket => absurd hmarket hnone⟩

theorem run_afterInsert (self : Session) {contract : Bytes} {id : ℤ} {row : AlertRecord}
    {rows : List AlertRecord} (hrows : w.db.alerts.rows = rows ++ [row])
    (hpending : AlertDB.pendingPrice row) (hcontract : row.contract = cstr contract)
    (hid : ¬ id < 0) :
    let after :=
      run exec (if id < 0 then self.say "ERR DB error adding price alert" else do
      refreshPriceAlertCache
      ask (.subscribe contract)
      self.sendLine (ascii "OK " ++ fmtInt id)) w
    after.1.2.lines = [ascii "OK " ++ fmtInt id] ∧ after.2.db = w.db ∧
      row ∈ after.2.priceAlertCache.at (cstr contract) ∧
      (w.marketData = true → (cstr contract).val ∈ after.2.subscribed) := by
  have harmed : row ∈ w.db.freshCache.at (cstr contract) := by
    rw [AlertDB.freshCache_at, AlertDB.getPendingPriceAlerts_none,
      Table.mem_select, hrows]
    exact ⟨List.mem_append_right _ List.mem_cons_self,
      decide_eq_true ⟨hpending, hcontract⟩⟩
  rw [if_neg hid, run_bind, run_refresh]
  obtain ⟨hdb, hcache, hsubscribed⟩ :=
    exec_subscribe contract { w with priceAlertCache := w.db.freshCache }
  exact ⟨rfl, hdb, hcache ▸ harmed, hsubscribed⟩

theorem run_addPrice (w : World) {user contract : Field} (price : ℚ) {cond : ℤ}
    (hself : 0 ≤ self.userId) (huser : IsToken user.val)
    (hcontract : IsToken contract.val) (hcond : cond = condGE ∨ cond = condLE) :
    (run exec (dispatch self
        (ClientCommand.addPrice user contract (priceField price) cond).text)
        w).1.2.lines =
        [ascii "OK " ++ fmtInt (w.db.alerts.seq + 1)] ∧
      AlertAdded w self contract price cond (run exec (dispatch self
        (ClientCommand.addPrice user contract (priceField price) cond).text) w).2 := by
  have hread : atoi (fmtInt cond) = cond := by
    rcases hcond with rfl | rfl <;> decide +kernel
  have hseq : ¬ w.db.alerts.seq + 1 < 0 := by
    have := w.db.alerts.seq_nonneg
    omega
  have hvalid : ¬ (cond ≠ condGE ∧ cond ≠ condLE) := by
    rcases hcond with h | h <;> simp [h]
  rw [dispatch_addPrice (ClientCommand.commandWord_text _), handleAddPrice,
    if_neg (not_lt.mpr hself), splitLine_addPrice huser hcontract]
  dsimp only
  rw [hread, if_neg hvalid, atof_fmtPrice4]
  have hrows : (exec (.addPriceAlert self.userId contract.val (rounded4 price) cond)
      w).2.db.alerts.rows = w.db.alerts.rows ++ [typedRow w self contract price cond] :=
    rfl
  obtain ⟨hreply, hdb, harmed, hsubscribed⟩ := run_afterInsert self hrows rfl rfl hseq
  exact ⟨hreply, (congrArg (fun db => db.alerts.rows) hdb).trans hrows,
    harmed, hsubscribed⟩

/-! ## The user of the command -/

section User

variable {sock : Socket} {s s' : Console}

/-- A price alert is asked for by the user whose name the console has. -/
def AsksAsUser (s : Console) : Prop :=
  ∀ user contract price cond, s.main.command = some (.addPrice user contract price cond) →
    user = s.username ∧ s.username.val ≠ []

theorem asksAsUser_of_none (hnone : s.main.command = none) : AsksAsUser s := by
  intro user contract price cond hcommand
  rw [hnone] at hcommand
  cases hcommand

theorem AsksAsUser.congr (h : AsksAsUser s) (hname : s'.username = s.username)
    (hcommand : s'.main.command = s.main.command) : AsksAsUser s' := by
  intro user contract price cond hasked
  rw [hname]
  exact h user contract price cond (hcommand.symm.trans hasked)

theorem asksAsUser_choose (s : Console) (m : MenuChoice) : AsksAsUser (s.choose m) := by
  by_cases hrefused : (m.needsLogin && decide (s.username.val = [])) = true
  · refine asksAsUser_of_none ?_
    unfold Console.choose
    rw [if_pos hrefused]
    rfl
  · intro user contract price cond hasked
    have hchosen := chosen_choose s m
    generalize s.choose m = s' at hasked hchosen ⊢
    cases hchosen with
    | tooLong | exit | back => cases hasked
    | @asked c size hcommand =>
        obtain rfl := Option.some.inj hasked
        cases m with
        | addPrice contract' cond' price' =>
            obtain ⟨hc, -⟩ := Prod.mk.inj (Option.some.inj hcommand)
            obtain ⟨rfl, -⟩ := ClientCommand.addPrice.inj hc
            exact ⟨rfl, fun hempty => hrefused (decide_eq_true hempty)⟩
        | invalid | unknown | exit => cases hcommand
        | _ => cases (Prod.mk.inj (Option.some.inj hcommand)).1

theorem AsksAsUser.line {c : ClientCommand} {lines rest : List Bytes} {line : Bytes}
    (h : AsksAsUser s) (hmain : s.main = .reading c lines) :
    AsksAsUser ({ s with recvQ := rest }.takeLine c lines line) := by
  intro user contract price cond hasked
  dsimp only [Console.takeLine] at hasked ⊢
  split at hasked
  · cases hasked
  · -- a login is done with one line, so the name stays
    obtain rfl := Option.some.inj hasked
    exact h user contract price cond (by rw [hmain]; rfl)

theorem AsksAsUser.step {a : ConsoleAction} (h : AsksAsUser s)
    (hstep : ConsoleStep sock s a s') : AsksAsUser s' := by
  cases hstep with
  | choose => exact asksAsUser_choose _ _
  | line hmain => exact h.line hmain
  | send hmain => exact h.congr rfl (by rw [hmain]; rfl)
  | drain | emptyLine | sendFails | timeout => exact asksAsUser_of_none rfl
  | alert | answer | skip | dispatch | receive | push | other => exact h.congr rfl rfl

theorem asksAsUser_of_run {server : Server} {t : List ConsoleAction}
    {P : List ConsoleAction → Console → ConsoleAction → Prop}
    (h : (console sock).Run P (.start server) t s) : AsksAsUser s := by
  induction h with
  | nil => exact asksAsUser_of_none rfl
  | snoc _ hnext _ ih => exact ih.step (step_of_console hnext)

end User

/-- In the runs of `console_name`, the price alert of a command is stored by the session
under the name that the console has, whatever the other clients do: the row has the
contract and the condition that were typed and the price up to half of a ten-thousandth,
the cache holds it, and the reply is its id. -/
theorem console_adds_alert {sock : Socket} {clock : ℕ → LocalTime} {marketData : Bool}
    {history : List Event} {server : Server} {t : List ConsoleAction} {s s' : Console}
    {user contract : Field} {price : ℚ} {cond : ℤ}
    (hstart : serveAll exec (.off .created clock) (.startUp marketData :: history) =
      some server)
    (hnew : server.sessions sock = some (.new sock))
    (h : (console sock).Run (fun _ _ a => a.onTime ∧ a.oneWord) (.start server) t s)
    (hasked : s.main.command = some (.addPrice user contract (priceField price) cond))
    (hcontract : IsToken contract.val) (hcond : cond = condGE ∨ cond = condLE)
    (hnext : (console sock).next s .session = some s')
    (hdispatched : s'.handled ≠ s.handled) :
    ∃ self, s.server.sessions sock = some self ∧ LoggedIn s.server.world.db self ∧
      self.username = s.username.val ∧
      s'.unsent = [ascii "OK " ++ fmtInt (s.server.world.db.alerts.seq + 1)] ∧
      AlertAdded s.server.world self contract price cond s'.server.world ∧
      |rounded4 price - price| ≤ 1 / 20000 := by
  obtain ⟨hsession, hconsole⟩ := named_of_run hstart hnew h
  obtain ⟨t', e, _, hrel, hflow⟩ := inStep_of_start hstart hnew h
  obtain ⟨rfl, hne⟩ := asksAsUser_of_run h _ _ _ _ hasked
  cases step_of_console hnext with
  | answer | skip => exact absurd rfl hdispatched
  | dispatch _ hrecv hline hserve hreply =>
      rw [← hrel.toServer] at hrecv
      -- the line is the command, and the replies before it have been read
      obtain ⟨c, hmain, rfl, -, -, -, -, hdone, -⟩ := hflow.received hrecv
      have hthread := hrel.main.symm.trans hmain
      obtain rfl : c = .addPrice s.username contract (priceField price) cond := by
        rcases thread_of_some hasked with ⟨hsending, -⟩ | hreading
        · cases hsending.symm.trans hthread
        · exact (MainThread.reading.inj (hthread.symm.trans hreading)).1
      have hsame : s.returned = s.handled := by
        rw [hrel.returned, hrel.handled, hdone]; rfl
      obtain ⟨self, hself, -, huser⟩ := agree_of_named hsession hconsole hsame
      obtain ⟨hid, hsameName, hlogged, htoken⟩ := huser hne
      have hadded := run_addPrice s.server.world price hid htoken hcontract hcond
      rw [Server.reply, hself] at hreply
      simp only [serve, hself] at hserve
      obtain rfl := Option.some.inj hreply
      obtain ⟨-, hserve⟩ := Option.ite_none_left_eq_some.mp hserve
      obtain rfl := Option.some.inj hserve
      exact ⟨self, hself, hlogged, hsameName, hadded.1, hadded.2, abs_rounded4_sub price⟩

theorem plain_rb2609 : ∀ b ∈ ascii "rb2609", Plain b := by decide

def rb2609 : Field := ⟨ascii "rb2609", plain_rb2609⟩

/-- After her login ann asks for an alert at 3450.00625 or below. -/
def asksAlert : List ConsoleAction :=
  twoAttempts ++ [.main, .choose (.addPrice rb2609 condLE (3450 + 1 / 160)), .main]

set_option synthInstance.maxSize 1000 in
set_option maxRecDepth 10000 in
/-- The price is stored as 3450.0062. -/
theorem console_adds_alert_ann :
    ∃ server s s' self,
    (console 8).Run (fun _ _ a => a.onTime ∧ a.oneWord) (.start server)
      asksAlert s ∧ (console 8).next s .session = some s' ∧
      s.server.sessions 8 = some self ∧ self.username = ascii "ann" ∧
      s'.unsent = [ascii "OK 2"] ∧ ∃ row ∈ s'.server.world.db.alerts.rows,
        row.userId = self.userId ∧ row.contract = cstr (ascii "rb2609") ∧
        row.triggerPrice = 34500062 / 10000 ∧ row.condition = condLE := by
  have hstate : (serveAll exec (.off .created fun _ => ⟨2025, 6, 0, 8, 55, 0⟩)
      (.startUp true :: annConnects)).map (fun server =>
        ((console 8).followIf (fun _ _ a => a.onTime && a.oneWord) [] (.start server)
          asksAlert).map fun s => (s.main.command, s.username.val, s.handled.length,
            s.server.world.db.alerts.seq, ((console 8).next s .session).map
              fun s' => s'.handled.length)) =
        some (some (some (.addPrice annName rb2609 (priceField (3450 + 1 / 160)) condLE),
          ascii "ann", 2, 1, some 3)) := by
    decide +kernel
  have hprice : rounded4 (3450 + 1 / 160) = 34500062 / 10000 := by decide +kernel
  obtain ⟨server, hstart, hnew⟩ := new_annConnects
  rw [hstart] at hstate
  obtain ⟨s, hs, hend⟩ := Option.map_eq_some_iff.mp (Option.some.inj hstate)
  simp only [Prod.mk.injEq] at hend
  obtain ⟨hasked, hname, hbefore, hseq, hlast⟩ := hend
  obtain ⟨s', hnext, hafter⟩ := Option.map_eq_some_iff.mp hlast
  have hrun : (console 8).Run (fun _ _ a => a.onTime ∧ a.oneWord) (.start server)
      asksAlert s :=
    (Machine.Run.followIf_append .nil hs).mono fun _ _ _ hok =>
    (Bool.and_eq_true _ _).mp hok
  have hdispatched : s'.handled ≠ s.handled := by
    intro hsame
    rw [hsame, hbefore] at hafter
    cases hafter
  obtain ⟨self, hself, -, huser, hreply, hadded, -⟩ := console_adds_alert hstart hnew hrun
    hasked (by decide +kernel) (.inr rfl) hnext hdispatched
  refine ⟨server, s, s', self, hrun, hnext, hself, huser.trans hname, ?_,
    typedRow s.server.world self rb2609 (3450 + 1 / 160) condLE, ?_, rfl,
    rfl, hprice, rfl⟩
  · rw [hreply, hseq]
    decide +kernel
  · rw [hadded.rows]
    exact List.mem_append_right _ List.mem_cons_self

end CloudAlert
