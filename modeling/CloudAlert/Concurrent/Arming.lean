import CloudAlert.Concurrent.Threads
import CloudAlert.Program.Promise
import CloudAlert.Session.Commands

/-!
# Calls that arm an alert

A row that is pending after a call and was not in the table before comes from an ADD or a
MODIFY (`arms_of_new`). What such a handler does afterwards is a property of what follows
that call; `dispatch_everywhere` leaves it to be shown for the four handlers that make
one.
-/

namespace CloudAlert

open Program

/-- The call, with its answer, has made the row `r` what it is. -/
inductive Arms (r : AlertRecord) : (c : Call) → c.Ans → Prop where
  | addPrice {uid : ℤ} {c : Bytes} {p : ℚ} {cond id : ℤ} (hid : 0 ≤ id) (hrow : r.id = id)
      (hcontract : r.contract = cstr c) : Arms r (.addPriceAlert uid c p cond) id
  | addTime {uid : ℤ} {c s : Bytes} {id : ℤ} (hid : 0 ≤ id)
      (hcontract : r.contract = cstr c) (htype : r.alertType = 1) :
      Arms r (.addTimeAlert uid c s) id
  | modifyPrice {id uid : ℤ} {c : Bytes} {p : ℚ} {cond : ℤ} (hrow : r.id = id)
      (hcontract : r.contract = cstr c) : Arms r (.modifyPriceAlert id uid c p cond) true
  | modifyTime {id uid : ℤ} {c s : Bytes} (hcontract : r.contract = cstr c)
      (htype : r.alertType = 1) : Arms r (.modifyTimeAlert id uid c s) true

theorem arms_of_new {c : Call} {w : World} {r' : AlertRecord}
    (hr' : r' ∈ (exec c w).2.db.alerts.rows) (hpending : r'.status = 0)
    (hnew : r' ∉ w.db.alerts.rows) : Arms r' c (exec c w).1 := by
  have hseq : 0 ≤ w.db.alerts.seq + 1 := by
    have hnonneg := w.db.alerts.seq_nonneg
    omega
  rcases mem_alerts_before c hr' with ⟨r, hr, rfl⟩ | hrow
  · rcases apply_eq_or_edit c r with hsame | hedit
    · rw [hsame] at hnew
      exact absurd hr hnew
    · generalize c.apply r = r' at hedit hpending
      cases hedit with
      | trigger => exact absurd hpending Int.one_ne_zero
      | delete => exact absurd hpending two_ne_zero
      | @modifyPrice id uid c p cond _ hid howner hlive =>
          have hok : (exec (.modifyPriceAlert id uid c p cond) w).1 = true :=
            modifyPriceAlert_true.mpr ⟨r, hr, hid, howner, hlive⟩
          rw [hok]
          exact .modifyPrice hid rfl
      | @modifyTime id uid c s _ hid howner hlive =>
          have hok : (exec (.modifyTimeAlert id uid c s) w).1 = true :=
            modifyTimeAlert_true.mpr ⟨r, hr, hid, howner, hlive⟩
          rw [hok]
          exact .modifyTime rfl rfl
  · cases c with
    | addPriceAlert uid c p cond =>
        obtain rfl := List.mem_singleton.mp hrow
        exact .addPrice hseq rfl rfl
    | addTimeAlert uid c s =>
        obtain rfl := List.mem_singleton.mp hrow
        exact .addTime hseq rfl rfl
    | _ => cases hrow

theorem Arms.arms {r : AlertRecord} {c : Call} {a : c.Ans} (h : Arms r c a) : c.arms := by
  cases h <;> trivial

/-- Only command lines arm alerts. -/
theorem line_of_arms {job : Job} {self : Session} {c : Call}
    (hc : ServerCall (fun _ _ => True) job self c) (h : c.arms) :
    ∃ line, job = .line line := by
  cases job with
  | line line => exact ⟨line, rfl⟩
  | _ => cases c <;> first | exact h.elim | exact hc.elim

section

variable {node : (c : Call) → (c.Ans → Handler) → Prop}
  (hquiet : ∀ c k, ¬ c.arms → node c k)
include hquiet

theorem everywhere_of_decided {p : Handler} (h : Decided p) :
    p.Everywhere Answer node := by
  obtain ⟨out, h⟩ := h
  have hanswer : p.Respects SilentCall Answer fun _ => True :=
    h.mono (fun _ h => h) (fun _ _ _ _ => trivial) fun _ _ => trivial
  refine hanswer.everywhere fun c k hc => hquiet c k fun harms => ?_
  cases c <;> first | exact hc | exact harms

theorem dispatch_everywhere (self : Session) (line : Bytes)
    (addPrice : commandWord line = ascii "ADD_PRICE" →
      (handleAddPrice self line).Everywhere Answer node)
    (addTime : commandWord line = ascii "ADD_TIME" →
      (handleAddTime self line).Everywhere Answer node)
    (modifyPrice : commandWord line = ascii "MODIFY_PRICE" →
      (handleModifyPrice self line).Everywhere Answer node)
    (modifyTime : commandWord line = ascii "MODIFY_TIME" →
      (handleModifyTime self line).Everywhere Answer node) :
    (dispatch self line).Everywhere Answer node := by
  have hother : ∀ {word : Bytes} {p : Handler}, word ≠ ascii "ADD_PRICE" →
      word ≠ ascii "ADD_TIME" → word ≠ ascii "MODIFY_PRICE" → word ≠ ascii "MODIFY_TIME" →
      (commandWord line = word → HandlerOk self line p) →
      commandWord line = word → p.Everywhere Answer node := by
    intro word p hap hat hmp hmt hp hword
    refine (hp hword).everywhere fun c k hc => hquiet c k fun harms => ?_
    cases c with
    | addPriceAlert => exact hap (hword.symm.trans hc.1)
    | addTimeAlert => exact hat (hword.symm.trans hc.1)
    | modifyPriceAlert => exact hmp (hword.symm.trans hc.1)
    | modifyTimeAlert => exact hmt (hword.symm.trans hc.1)
    | _ => exact harms
  refine dispatch_rule self line ?_ ?_ addPrice addTime ?_ modifyPrice
    modifyTime ?_ ?_ ?_ ?_
    trivial
  · exact hother (by decide) (by decide) (by decide) (by decide) handleRegister_ok
  · exact hother (by decide) (by decide) (by decide) (by decide) handleLogin_ok
  · exact hother (by decide) (by decide) (by decide) (by decide) handleDelete_ok
  · exact hother (by decide) (by decide) (by decide) (by decide) fun _ => handleQuery_ok
  · exact hother (by decide) (by decide) (by decide) (by decide) handleSetEmail_ok
  · exact hother (by decide) (by decide) (by decide) (by decide) fun _ =>
      handleGetEmail_ok
  · rintro (h | h)
    · exact hother (by decide) (by decide) (by decide) (by decide)
        (fun _ => handleGetPrices_ok) h
    · exact hother (by decide) (by decide) (by decide) (by decide)
        (fun _ => handleGetPrices_ok) h

/-- The other jobs arm no alert. -/
theorem serverCode_everywhere (job : Job) (self : Session)
    (hline : ∀ line, (dispatch self line).Everywhere Answer node) :
    (serverCode job self).Everywhere Answer node := by
  have hcode :
      (serverCode job self).Respects (ServerCall (fun _ _ => True) job self) Answer
      (ServerResult job self) := server_contract.code job self
  cases job with
  | line line => exact hline line
  | _ =>
      refine hcode.everywhere fun c k hc => hquiet c k fun harms => ?_
      exact nomatch line_of_arms hc harms

end

end CloudAlert
