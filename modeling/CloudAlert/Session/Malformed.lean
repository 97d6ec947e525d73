import CloudAlert.Server.Failures
import CloudAlert.Server.History
import CloudAlert.Session.Commands
import CloudAlert.Session.Rejected
import CloudAlert.Session.Replies
import CloudAlert.Text.Numerals

/-!
# Malformed numbers

The handlers read their numeric arguments with `atoi` and `atof`, which read the front of
any text. `NumeralLaw` asks for what a strict reader would do: an argument that is not a
numeral is refused, and the condition check admits the numerals of 0 and 1. The handlers
keep the law only where they refuse the line for another reason (`Misread`).
-/

namespace CloudAlert

open Program

/-! ## Numeric arguments -/

/-- The kinds of numeric arguments. -/
inductive NumeralKind where
  | integer
  | decimal

/-- The text is a numeral of the kind. -/
def NumeralKind.IsNumeral : NumeralKind → Bytes → Prop
  | .integer => IsIntNumeral
  | .decimal => IsDecimalNumeral

/-- Where a command has its numeric arguments. -/
def numericArguments (word : Bytes) : List (ℕ × NumeralKind) :=
  if word = ascii "ADD_PRICE" then [(3, .decimal), (4, .integer)]
  else if word = ascii "DELETE" then [(1, .integer)]
  else if word = ascii "MODIFY_PRICE" then [(1, .integer), (3, .decimal), (4, .integer)]
  else if word = ascii "MODIFY_TIME" then [(1, .integer)]
  else if word = ascii "QUERY" then [(2, .integer)]
  else []

/-- A numeric argument of the line is not a numeral. -/
def Malformed (line : Bytes) : Prop :=
  ∃ arg ∈ numericArguments (commandWord line), ∃ tok,
    (splitLine line)[arg.1]? = some tok ∧
    ¬ arg.2.IsNumeral tok

/-- The condition argument of the line. -/
def conditionArgument (line : Bytes) : Option Bytes :=
  if commandWord line = ascii "ADD_PRICE" ∨ commandWord line = ascii "MODIFY_PRICE" then
    (splitLine line)[4]?
  else none

/-- The token is a numeral of the integer. -/
def Denotes (tok : Bytes) (n : ℤ) : Prop := IsIntNumeral tok ∧ intValue tok = n

theorem atoi_of_denotes {tok : Bytes} (h : Denotes tok condGE ∨ Denotes tok condLE) :
    atoi tok = condGE ∨ atoi tok = condLE := by
  rcases h with ⟨hnumeral, hvalue⟩ | ⟨hnumeral, hvalue⟩
  · exact .inl (by rw [atoi_of_numeral hnumeral, hvalue]; rfl)
  · exact .inr (by rw [atoi_of_numeral hnumeral, hvalue]; rfl)

/-- A token that passes the check denotes 0 or 1 exactly if it is a numeral. -/
theorem denotes_iff_of_atoi {tok : Bytes} (h : atoi tok = condGE ∨ atoi tok = condLE) :
    Denotes tok condGE ∨ Denotes tok condLE ↔ IsIntNumeral tok := by
  constructor
  · rintro (hdenotes | hdenotes)
    · exact hdenotes.1
    · exact hdenotes.1
  · intro hnumeral
    rw [atoi_of_numeral hnumeral, condGE, condLE] at h
    rcases h with h | h
    · exact .inl ⟨hnumeral, by rw [condGE]; omega⟩
    · exact .inr ⟨hnumeral, by rw [condLE]; omega⟩

/-! ## The law -/

/-- One ERR line, and nothing changes. -/
def Refused (self : Session) (w : World) (out : (Session × Reply) × World) : Prop :=
  ∃ resp, IsErr resp ∧ out = ((self, ⟨[resp], false⟩), w)

/-- The line with which the condition check refuses. -/
def conditionError : Bytes := ascii "ERR condition must be 0 (>=) or 1 (<=)"

/-- Malformed arguments are refused, and the condition check admits exactly the numerals
of 0 and 1. -/
structure NumeralLaw (session : Session) (line : Bytes) (w : World) (h : Handler) :
    Prop where
  malformed : Malformed line → Refused session w (run exec h w)
  condition : ∀ cond, conditionArgument line = some cond →
    ((run exec h w).1.2.lines ≠ [conditionError] ↔
      Denotes cond condGE ∨ Denotes cond condLE)

/-- The database has an alert that the command may change. -/
def AlertDB.OwnsAlert (db : AlertDB) (alertId : Bytes) (userId : ℤ) : Prop :=
  ∃ r ∈ db.alerts.rows, ownGuard (atoi alertId) userId r

section Misread

variable {self : Session} {db : AlertDB}

/-- The condition reads as 0 or 1, and it or the price is no numeral. -/
def AddPriceMisread : List Bytes → Prop
  | _ :: _ :: _ :: price :: cond :: _ =>
      (atoi cond = condGE ∨ atoi cond = condLE) ∧
        ¬ (IsDecimalNumeral price ∧ IsIntNumeral cond)
  | _ => False

theorem AddPriceMisread.tokens {tokens : List Bytes} (h : AddPriceMisread tokens) :
    ∃ word u c price cond rest, tokens = word :: u :: c :: price :: cond :: rest := by
  unfold AddPriceMisread at h
  split at h
  · exact ⟨_, _, _, _, _, _, rfl⟩
  · exact h.elim

/-- The id reads as that of an alert, and is no numeral. -/
def DeleteMisread (self : Session) (db : AlertDB) : List Bytes → Prop
  | _ :: alertId :: _ => db.OwnsAlert alertId self.userId ∧ ¬ IsIntNumeral alertId
  | _ => False

theorem DeleteMisread.tokens {tokens : List Bytes} (h : DeleteMisread self db tokens) :
    ∃ word alertId rest, tokens = word :: alertId :: rest := by
  unfold DeleteMisread at h
  split at h
  · exact ⟨_, _, _, rfl⟩
  · exact h.elim

/-- The condition reads as 0 or 1 and is no numeral, or the id reads as that of an alert
and it or the price is no numeral. -/
def ModifyPriceMisread (self : Session) (db : AlertDB) : List Bytes → Prop
  | _ :: alertId :: _ :: price :: cond :: _ =>
      (atoi cond = condGE ∨ atoi cond = condLE) ∧
        (¬ IsIntNumeral cond ∨ db.OwnsAlert alertId self.userId ∧
          ¬ (IsIntNumeral alertId ∧ IsDecimalNumeral price))
  | _ => False

theorem ModifyPriceMisread.tokens {tokens : List Bytes}
    (h : ModifyPriceMisread self db tokens) :
    ∃ word alertId c price cond rest, tokens =
    word :: alertId :: c :: price :: cond :: rest := by
  unfold ModifyPriceMisread at h
  split at h
  · exact ⟨_, _, _, _, _, _, rfl⟩
  · exact h.elim

/-- The id reads as that of an alert, and is no numeral. -/
def ModifyTimeMisread (self : Session) (db : AlertDB) : List Bytes → Prop
  | _ :: alertId :: _ :: _ :: _ =>
      db.OwnsAlert alertId self.userId ∧ ¬ IsIntNumeral alertId
  | _ => False

theorem ModifyTimeMisread.tokens {tokens : List Bytes}
    (h : ModifyTimeMisread self db tokens) :
    ∃ word alertId c t rest, tokens = word :: alertId :: c :: t :: rest := by
  unfold ModifyTimeMisread at h
  split at h
  · exact ⟨_, _, _, _, _, rfl⟩
  · exact h.elim

/-- The status is no numeral. -/
def QueryMisread : List Bytes → Prop
  | _ :: _ :: status :: _ => ¬ IsIntNumeral status
  | _ => False

theorem QueryMisread.tokens {tokens : List Bytes} (h : QueryMisread tokens) :
    ∃ word u status rest, tokens = word :: u :: status :: rest := by
  unfold QueryMisread at h
  split at h
  · exact ⟨_, _, _, _, rfl⟩
  · exact h.elim

end Misread

/-- A malformed argument passes for a number. -/
def Misread (self : Session) (line : Bytes) (db : AlertDB) : Prop :=
  if commandWord line = ascii "ADD_PRICE" then AddPriceMisread (splitLine line)
  else if commandWord line = ascii "DELETE" then DeleteMisread self db (splitLine line)
  else if commandWord line = ascii "MODIFY_PRICE" then
    ModifyPriceMisread self db (splitLine line)
  else if commandWord line = ascii "MODIFY_TIME" then
    ModifyTimeMisread self db (splitLine line)
  else if commandWord line = ascii "QUERY" then QueryMisread (splitLine line)
  else False

/-! ## Outcomes -/

section

variable {self : Session} {line : Bytes} {w : World} {h : Handler}

theorem numeralLaw_of_error {resp : Bytes} (herr : IsErr resp)
    (hrun : run exec h w = ((self, ⟨[resp], false⟩), w)) :
    NumeralLaw self line w h ↔ ∀ cond, conditionArgument line = some cond →
      (resp ≠ conditionError ↔ Denotes cond condGE ∨ Denotes cond condLE) := by
  have hlines : (run exec h w).1.2.lines ≠ [conditionError] ↔ resp ≠ conditionError := by
    rw [hrun]
    exact not_congr (List.cons_eq_cons.trans (and_iff_left rfl))
  constructor
  · intro hlaw cond hcond
    exact hlines.symm.trans (hlaw.condition cond hcond)
  · intro hcheck
    exact ⟨fun _ => ⟨resp, herr, hrun⟩,
      fun cond hcond => hlines.trans (hcheck cond hcond)⟩

theorem numeralLaw_of_accepted
    (hlines : ∀ resp ∈ (run exec h w).1.2.lines, ¬ IsErr resp) :
    NumeralLaw self line w h ↔ ¬ Malformed line ∧
    ∀ cond, conditionArgument line = some cond →
      (Denotes cond condGE ∨ Denotes cond condLE) := by
  have haccepted : (run exec h w).1.2.lines ≠ [conditionError] := by
    intro heq
    exact hlines conditionError (heq ▸ List.mem_singleton_self _) (by decide)
  constructor
  · intro hlaw
    refine ⟨fun hbad => ?_, fun cond hcond => (hlaw.condition cond hcond).mp haccepted⟩
    obtain ⟨resp, herr, hrun⟩ := hlaw.malformed hbad
    rw [hrun] at hlines
    exact hlines resp (List.mem_singleton_self resp) herr
  · rintro ⟨hgood, hcheck⟩
    exact ⟨fun hbad => absurd hbad hgood, fun cond hcond =>
      iff_of_true haccepted (hcheck cond hcond)⟩

theorem lines_ask (resp : Bytes) {c : Call} {k : c.Ans → Handler}
    (hk : (k (exec c w).1).Settled SilentCall (self, ⟨[resp], false⟩)) :
    (run exec (ask c >>= k) w).1.2.lines = [resp] := by
  have hout : (run exec (k (exec c w).1) (exec c w).2).1 = (self, ⟨[resp], false⟩) :=
    (Respects.run hk (fun _ : World => True)
      (fun _ _ _ _ => ⟨trivial, trivial⟩) trivial).2
  exact congrArg (fun out => out.2.lines) hout

theorem run_ask_refused {c : Call} {k : c.Ans → Handler} {resp : Bytes}
    (hk : k (exec c w).1 = self.sendLine resp) (hw : (exec c w).2 = w) :
    run exec (ask c >>= k) w = ((self, ⟨[resp], false⟩), w) := by
  change run exec (k (exec c w).1) (exec c w).2 = _
  rw [hk, hw]
  rfl

theorem not_isErr_ok (rest : Bytes) : ¬ IsErr (ascii "OK" ++ rest) :=
  not_isErr_of_word (List.prefix_append _ _) (by decide) (by decide)

/-- A line that has a condition argument has all the tokens of the command. -/
theorem tokens_of_condition {tokens : List Bytes} {cond : Bytes}
    (h : tokens[4]? = some cond) :
    ∃ word a b c rest, tokens = word :: a :: b :: c :: cond :: rest := by
  rcases tokens with _ | ⟨word, _ | ⟨a, _ | ⟨b, _ | ⟨c, _ | ⟨cond', rest⟩⟩⟩⟩⟩
  case cons.cons.cons.cons.cons =>
    obtain rfl := Option.some.inj h
    exact ⟨word, a, b, c, rest, rfl⟩
  all_goals cases h

theorem forall_argument {P : Bytes → Prop} {cond : Bytes}
    (hcondition : conditionArgument line = some cond) :
    (∀ cond', conditionArgument line = some cond' → P cond') ↔ P cond := by
  rw [hcondition]
  exact ⟨fun hall => hall cond rfl,
    fun hone cond' hcond' => Option.some.inj hcond' ▸ hone⟩

/-- A condition other than 0 and 1 is refused as such. -/
theorem numeralLaw_badCondition {cond : Bytes} {bad : Prop}
    (hcondition : conditionArgument line = some cond)
    (hcond : atoi cond ≠ condGE ∧ atoi cond ≠ condLE)
    (hbad : bad → atoi cond = condGE ∨ atoi cond = condLE) :
    NumeralLaw self line w (self.sendLine conditionError) ↔ ¬ bad := by
  refine Iff.trans (numeralLaw_of_error (by decide) rfl) (iff_of_true ?_ ?_)
  · refine (forall_argument hcondition).mpr
      (iff_of_false (fun h => h rfl) fun hdenotes => ?_)
    exact (atoi_of_denotes hdenotes).elim hcond.1 hcond.2
  · exact fun h => (hbad h).elim hcond.1 hcond.2

theorem numeralLaw_tooShort {resp : Bytes} {bad : Prop} (herr : IsErr resp)
    (hcondition : conditionArgument line = (splitLine line)[4]?)
    (hshort : ∀ word a b c cond rest,
      splitLine line ≠ word :: a :: b :: c :: cond :: rest)
    (hbad : bad → ∃ word a b c cond rest, splitLine line =
      word :: a :: b :: c :: cond :: rest) :
    NumeralLaw self line w (self.sendLine resp) ↔ ¬ bad := by
  refine Iff.trans (numeralLaw_of_error herr rfl) (iff_of_true ?_ ?_)
  · intro cond hcond
    obtain ⟨word, a, b, c, rest, htokens⟩ :=
      tokens_of_condition (hcondition.symm.trans hcond)
    exact (hshort word a b c cond rest htokens).elim
  · intro h
    obtain ⟨word, a, b, c, cond, rest, htokens⟩ := hbad h
    exact hshort word a b c cond rest htokens

/-! ## Handlers -/

theorem handleAddPrice_numeralLaw (hself : 0 ≤ self.userId)
    (hword : commandWord line = ascii "ADD_PRICE") :
    NumeralLaw self line w (handleAddPrice self line) ↔ ¬ Misread self line w.db := by
  have hcondition : conditionArgument line = (splitLine line)[4]? := if_pos (.inl hword)
  rw [Misread, if_pos hword]
  unfold handleAddPrice
  rw [if_neg (not_lt.mpr hself)]
  split
  · rename_i word u c price cond rest htokens
    rw [htokens] at hcondition ⊢
    rw [AddPriceMisread]
    by_cases hcond : atoi cond ≠ condGE ∧ atoi cond ≠ condLE
    · rw [if_pos hcond]
      exact numeralLaw_badCondition hcondition hcond And.left
    · rw [if_neg hcond]
      have hcond : atoi cond = condGE ∨ atoi cond = condLE := by
        simpa only [ne_eq, not_and_or, not_not] using hcond
      have hmalformed :
          Malformed line ↔ ¬ (IsDecimalNumeral price ∧ IsIntNumeral cond) := by
        rw [Malformed, hword, numericArguments, if_pos rfl, htokens, not_and_or]
        simp [NumeralKind.IsNumeral]
      refine Iff.trans (numeralLaw_of_accepted ?_) ?_
      · have hid : (exec (.addPriceAlert self.userId c (atof price) (atoi cond)) w).1 =
            w.db.alerts.seq + 1 := rfl
        rw [lines_ask (ascii "OK " ++ fmtInt (w.db.alerts.seq + 1)),
          List.forall_mem_singleton]
        · exact not_isErr_ok (32 :: fmtInt _)
        · rw [hid, if_neg (by have := w.db.alerts.seq_nonneg; omega)]
          exact settled_refresh (settled_call trivial fun _ => settled_ret)
      · rw [forall_argument hcondition, denotes_iff_of_atoi hcond, hmalformed, not_not]
        refine Iff.trans (and_iff_left_of_imp And.right) ?_
        exact ((not_congr (and_iff_right hcond)).trans not_not).symm
  · rename_i hshort
    exact numeralLaw_tooShort (by decide) hcondition hshort fun hbad => hbad.tokens

theorem conditionArgument_eq_none (h : commandWord line ≠ ascii "ADD_PRICE")
    (h' : commandWord line ≠ ascii "MODIFY_PRICE") : conditionArgument line = none :=
  if_neg (not_or.mpr ⟨h, h'⟩)

theorem numeralLaw_of_error_other {resp : Bytes}
    (hcondition : conditionArgument line = none)
    (herr : IsErr resp) (hrun : run exec h w = ((self, ⟨[resp], false⟩), w)) :
    NumeralLaw self line w h := by
  refine (numeralLaw_of_error herr hrun).mpr fun cond hcond => ?_
  rw [hcondition] at hcond
  cases hcond

theorem numeralLaw_of_accepted_other (hcondition : conditionArgument line = none)
    (hlines : ∀ resp ∈ (run exec h w).1.2.lines, ¬ IsErr resp) :
    NumeralLaw self line w h ↔ ¬ Malformed line := by
  refine (numeralLaw_of_accepted hlines).trans (and_iff_left fun cond hcond => ?_)
  rw [hcondition] at hcond
  cases hcond

theorem store_of_not_true {guard : AlertRecord → Bool} {f : AlertRecord → AlertRecord}
    {hf : ∀ r, (f r).id = r.id} (hok : ¬ (w.db.updateAlerts .none guard f hf).1 = true) :
    (w.store (w.db.updateAlerts .none guard f hf)).2 = w := by
  rw [World.store, w.db.updateAlerts_of_not_true hok]

theorem handleDelete_numeralLaw (hself : 0 ≤ self.userId)
    (hword : commandWord line = ascii "DELETE") :
    NumeralLaw self line w (handleDelete self line) ↔ ¬ Misread self line w.db := by
  have hcondition : conditionArgument line = none :=
    conditionArgument_eq_none (by rw [hword]; decide) (by rw [hword]; decide)
  unfold Misread
  rw [hword, if_neg (by decide), if_pos rfl]
  unfold handleDelete
  rw [if_neg (not_lt.mpr hself)]
  split
  · rename_i word alertId rest htokens
    rw [htokens, DeleteMisread]
    by_cases hok : (w.db.deleteAlert .none (atoi alertId) self.userId).1 = true
    · refine Iff.trans (numeralLaw_of_accepted_other hcondition ?_) (not_congr ?_)
      · rw [lines_ask (ascii "OK"), List.forall_mem_singleton]
        · exact not_isErr_ok []
        · change Settled _ _ (if (w.db.deleteAlert _ _ _).1 = true then _ else _)
          rw [if_pos hok]
          exact settled_refresh settled_ret
      · have howns : w.db.OwnsAlert alertId self.userId := w.db.updateAlerts_true.mp hok
        refine Iff.trans ?_ (and_iff_right howns).symm
        rw [Malformed, hword, numericArguments, if_neg (by decide), if_pos rfl, htokens]
        simp [NumeralKind.IsNumeral]
    · refine iff_of_true ?_ fun hbad => hok (w.db.updateAlerts_true.mpr hbad.1)
      exact numeralLaw_of_error_other hcondition
        (show IsErr (ascii "ERR Delete failed (not found or already deleted)") by decide)
        (run_ask_refused (if_neg hok) (store_of_not_true hok))
  · rename_i hshort
    refine iff_of_true (numeralLaw_of_error_other hcondition (by decide) rfl) fun hbad =>
      ?_
    obtain ⟨_, _, _, htokens⟩ := hbad.tokens
    exact hshort _ _ _ htokens

theorem handleModifyTime_numeralLaw (hself : 0 ≤ self.userId)
    (hword : commandWord line = ascii "MODIFY_TIME") :
    NumeralLaw self line w (handleModifyTime self line) ↔ ¬ Misread self line w.db := by
  have hcondition : conditionArgument line = none :=
    conditionArgument_eq_none (by rw [hword]; decide) (by rw [hword]; decide)
  unfold Misread
  rw [hword, if_neg (by decide), if_neg (by decide), if_neg (by decide), if_pos rfl]
  unfold handleModifyTime
  rw [if_neg (not_lt.mpr hself)]
  split
  · rename_i word alertId c t rest htokens
    rw [htokens, ModifyTimeMisread]
    by_cases hok : (w.db.modifyTimeAlert .none (atoi alertId) self.userId c t).1 = true
    · refine Iff.trans (numeralLaw_of_accepted_other hcondition ?_) (not_congr ?_)
      · rw [lines_ask (ascii "OK"), List.forall_mem_singleton]
        · exact not_isErr_ok []
        · change Settled _ _ (if (w.db.modifyTimeAlert _ _ _ _ _).1 = true then _ else _)
          rw [if_pos hok]
          exact settled_refresh settled_ret
      · have howns : w.db.OwnsAlert alertId self.userId := w.db.updateAlerts_true.mp hok
        refine Iff.trans ?_ (and_iff_right howns).symm
        rw [Malformed, hword, numericArguments, if_neg (by decide), if_neg (by decide),
          if_neg (by decide), if_pos rfl, htokens]
        simp [NumeralKind.IsNumeral]
    · refine iff_of_true ?_ fun hbad => hok (w.db.updateAlerts_true.mpr hbad.1)
      exact numeralLaw_of_error_other hcondition
        (show IsErr (ascii "ERR Modify failed") by decide)
        (run_ask_refused (if_neg hok) (store_of_not_true hok))
  · rename_i hshort
    refine iff_of_true (numeralLaw_of_error_other hcondition (by decide) rfl) fun hbad =>
      ?_
    obtain ⟨_, _, _, _, _, htokens⟩ := hbad.tokens
    exact hshort _ _ _ _ _ htokens

theorem handleModifyPrice_numeralLaw (hself : 0 ≤ self.userId)
    (hword : commandWord line = ascii "MODIFY_PRICE") :
    NumeralLaw self line w (handleModifyPrice self line) ↔ ¬ Misread self line w.db := by
  have hcondition : conditionArgument line = (splitLine line)[4]? := if_pos (.inr hword)
  unfold Misread
  rw [hword, if_neg (by decide), if_neg (by decide), if_pos rfl]
  unfold handleModifyPrice
  rw [if_neg (not_lt.mpr hself)]
  split
  · rename_i word alertId c price cond rest htokens
    rw [htokens] at hcondition ⊢
    rw [ModifyPriceMisread]
    by_cases hcond : atoi cond ≠ condGE ∧ atoi cond ≠ condLE
    · rw [if_pos hcond]
      exact numeralLaw_badCondition hcondition hcond And.left
    · rw [if_neg hcond]
      have hcond : atoi cond = condGE ∨ atoi cond = condLE := by
        simpa only [ne_eq, not_and_or, not_not] using hcond
      refine Iff.trans ?_ (not_congr (and_iff_right hcond)).symm
      by_cases hok :
        (w.db.modifyPriceAlert .none (atoi alertId) self.userId c (atof price)
          (atoi cond)).1 = true
      · have howns : w.db.OwnsAlert alertId self.userId := w.db.updateAlerts_true.mp hok
        have hmalformed : Malformed line ↔ ¬ IsIntNumeral alertId ∨
            ¬ IsDecimalNumeral price ∨
            ¬ IsIntNumeral cond := by
          rw [Malformed, hword, numericArguments, if_neg (by decide), if_neg (by decide),
            if_pos rfl, htokens]
          simp [NumeralKind.IsNumeral]
        refine Iff.trans (numeralLaw_of_accepted ?_) ?_
        · rw [lines_ask (ascii "OK"), List.forall_mem_singleton]
          · exact not_isErr_ok []
          · change Settled
              _ _ (if (w.db.modifyPriceAlert _ _ _ _ _ _).1 = true then _ else _)
            rw [if_pos hok]
            exact settled_refresh (settled_call trivial fun _ => settled_ret)
        · rw [forall_argument hcondition, denotes_iff_of_atoi hcond, hmalformed,
            and_iff_right howns]
          simp only [not_or, not_not]
          exact ⟨fun h => ⟨h.2, h.1.1, h.1.2.1⟩, fun h => ⟨⟨h.2.1, h.2.2, h.1⟩, h.1⟩⟩
      · have howns : ¬ w.db.OwnsAlert alertId self.userId := fun howns =>
          hok (w.db.updateAlerts_true.mpr howns)
        refine Iff.trans
          (numeralLaw_of_error (show IsErr (ascii "ERR Modify failed") by decide)
          (run_ask_refused (if_neg hok) (store_of_not_true hok))) ?_
        rw [forall_argument hcondition, denotes_iff_of_atoi hcond,
          iff_true_left (show ascii "ERR Modify failed" ≠ conditionError by decide),
          or_iff_left fun hbad => howns hbad.1, not_not]
  · rename_i hshort
    exact numeralLaw_tooShort (by decide) hcondition hshort fun hbad => hbad.tokens

/-- QUERY has no check of its own. -/
theorem handleQuery_numeralLaw (hself : 0 ≤ self.userId)
    (hword : commandWord line = ascii "QUERY") :
    NumeralLaw self line w (handleQuery self line) ↔ ¬ Misread self line w.db := by
  have hcondition : conditionArgument line = none :=
    conditionArgument_eq_none (by rw [hword]; decide) (by rw [hword]; decide)
  unfold Misread
  rw [hword, if_neg (by decide), if_neg (by decide), if_neg (by decide),
    if_neg (by decide), if_pos rfl]
  unfold handleQuery
  rw [if_neg (not_lt.mpr hself)]
  split
  · rename_i word u status rest htokens
    rw [htokens, QueryMisread]
    have hmalformed : Malformed line ↔ ¬ IsIntNumeral status := by
      rw [Malformed, hword, numericArguments, if_neg (by decide), if_neg (by decide),
        if_neg (by decide), if_neg (by decide), if_pos rfl, htokens]
      simp [NumeralKind.IsNumeral]
    refine Iff.trans (numeralLaw_of_accepted_other hcondition ?_) (not_congr hmalformed)
    exact neverErr_alertLines (w.db.queryAlerts .none self.userId (atoi status))
  · rename_i hshort
    refine iff_of_true (numeralLaw_of_error_other hcondition (by decide) rfl) fun hbad =>
      ?_
    obtain ⟨_, _, _, _, htokens⟩ := hbad.tokens
    exact hshort _ _ _ _ htokens

/-- The other commands have no numeric arguments. -/
theorem numeralLaw_other (hother : ∀ word ∈ ["ADD_PRICE", "DELETE", "MODIFY_PRICE",
      "MODIFY_TIME", "QUERY"], commandWord line ≠ ascii word) :
    NumeralLaw self line w h ↔ ¬ Misread self line w.db := by
  simp only [List.forall_mem_cons] at hother
  obtain ⟨haddPrice, hdelete, hmodifyPrice, hmodifyTime, hquery, -⟩ := hother
  refine iff_of_true ⟨?_, fun cond hcond => ?_⟩ fun hbad => ?_
  · rintro ⟨arg, harg, -⟩
    rw [numericArguments, if_neg haddPrice, if_neg hdelete, if_neg hmodifyPrice,
      if_neg hmodifyTime, if_neg hquery] at harg
    cases harg
  · rw [conditionArgument_eq_none haddPrice hmodifyPrice] at hcond
    cases hcond
  · rw [Misread, if_neg haddPrice, if_neg hdelete, if_neg hmodifyPrice,
      if_neg hmodifyTime, if_neg hquery] at hbad
    exact hbad

end

/-- A logged-in session keeps the law exactly where no malformed argument passes for a
number. -/
theorem numeralLaw_iff (self : Session) (line : Bytes) (w : World)
    (hself : 0 ≤ self.userId) :
    NumeralLaw self line w (dispatch self line) ↔ ¬ Misread self line w.db := by
  by_cases haddPrice : commandWord line = ascii "ADD_PRICE"
  · rw [dispatch_addPrice haddPrice]
    exact handleAddPrice_numeralLaw hself haddPrice
  by_cases hdelete : commandWord line = ascii "DELETE"
  · rw [dispatch_delete hdelete]
    exact handleDelete_numeralLaw hself hdelete
  by_cases hmodifyPrice : commandWord line = ascii "MODIFY_PRICE"
  · rw [dispatch_modifyPrice hmodifyPrice]
    exact handleModifyPrice_numeralLaw hself hmodifyPrice
  by_cases hmodifyTime : commandWord line = ascii "MODIFY_TIME"
  · rw [dispatch_modifyTime hmodifyTime]
    exact handleModifyTime_numeralLaw hself hmodifyTime
  by_cases hquery : commandWord line = ascii "QUERY"
  · rw [dispatch_query self line hquery]
    exact handleQuery_numeralLaw hself hquery
  exact numeralLaw_other (by simp [*])

/-- A new server on an empty database. -/
def newServer : World := .fresh .created true fun _ => ⟨2025, 6, 0, 9, 30, 0⟩

theorem numeralLaw_of_numerals :
    NumeralLaw ⟨7, 1, ascii "ann"⟩ (ascii "ADD_PRICE ann au2512 3500 0") newServer
      (dispatch ⟨7, 1, ascii "ann"⟩ (ascii "ADD_PRICE ann au2512 3500 0")) := by
  refine (numeralLaw_iff _ _ _ (by decide)).mpr ?_
  have htokens : splitLine (ascii "ADD_PRICE ann au2512 3500 0") =
      [ascii "ADD_PRICE", ascii "ann", ascii "au2512", ascii "3500", ascii "0"] := by
    decide
  rw [Misread, if_pos (by decide), htokens, AddPriceMisread]
  exact fun hbad => hbad.2 ⟨by decide, by decide⟩

/-- A price with a thousands separator: the alert is armed at 3. -/
theorem separator_passes : ¬ ∀ (self : Session) (line : Bytes) (w : World),
    0 ≤ self.userId →
    NumeralLaw self line w (dispatch self line) := by
  intro hall
  have hword : commandWord (ascii "ADD_PRICE ann au2512 3,500 0") =
      ascii "ADD_PRICE" := by
    decide
  have htokens : splitLine (ascii "ADD_PRICE ann au2512 3,500 0") =
      [ascii "ADD_PRICE", ascii "ann", ascii "au2512", ascii "3,500", ascii "0"] := by
    decide
  have hlaw := hall ⟨7, 1, ascii "ann"⟩ (ascii "ADD_PRICE ann au2512 3,500 0") newServer
    (by decide)
  rw [dispatch_addPrice hword, handleAddPrice_numeralLaw (by decide) hword,
    Misread, if_pos hword, htokens, AddPriceMisread] at hlaw
  exact hlaw ⟨.inl (by decide), by decide⟩

end CloudAlert
