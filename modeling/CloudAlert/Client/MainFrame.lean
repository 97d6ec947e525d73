import CloudAlert.Client.Wire
import CloudAlert.Session.Plain

/-!
# The commands of the window

The commands `CMainFrame` sends, each with the flag `expectEnd` it is sent with, and the
rule by which `SendCommand` decides that a reply is complete. `reply_complete` says that
the rule agrees with the server: the last line of a reply is the first one it stops at.
-/

namespace CloudAlert

open Program

/-! ## Commands -/

/-- The text of a one-line field of the window. -/
abbrev Field := {s : Bytes // ∀ b ∈ s, Plain b}

/-- The name and the password of the account in the examples, as they are typed. -/
def annName : Field := ⟨ascii "ann", by decide⟩

def annPassword : Field := ⟨ascii "pw", by decide⟩

/-- The commands of the window. -/
inductive ClientCommand where
  | login (user password : Field)
  | register (user password email : Field)
  | setEmail (user password email : Field)
  | addPrice (user contract price : Field) (cond : ℤ)
  | addTime (user contract timeText : Field)
  | modifyPrice (id contract price : Field) (cond : ℤ)
  | modifyTime (id contract timeText : Field)
  | delete (id : Field)
  | query (user : Field) (status : ℤ)
  | getPrices (contracts : List Field)
  | getEmail (user : Field)
deriving DecidableEq

namespace ClientCommand

/-- The command word. -/
def word : ClientCommand → Bytes
  | login _ _ => ascii "LOGIN"
  | register _ _ _ => ascii "REGISTER"
  | setEmail _ _ _ => ascii "SET_EMAIL"
  | addPrice _ _ _ _ => ascii "ADD_PRICE"
  | addTime _ _ _ => ascii "ADD_TIME"
  | modifyPrice _ _ _ _ => ascii "MODIFY_PRICE"
  | modifyTime _ _ _ => ascii "MODIFY_TIME"
  | delete _ => ascii "DELETE"
  | query _ _ => ascii "QUERY"
  | getPrices _ => ascii "GET_PRICES"
  | getEmail _ => ascii "GET_EMAIL"

/-- What its format puts after the command word. -/
def arguments : ClientCommand → List Bytes
  | login user password => [user.val, password.val]
  | register user password email => [user.val, password.val, email.val]
  | setEmail user password email => [user.val, password.val, email.val]
  | addPrice user contract price cond => [user.val, contract.val, price.val, fmtInt cond]
  | addTime user contract timeText => [user.val, contract.val, timeText.val]
  | modifyPrice id contract price cond => [id.val, contract.val, price.val, fmtInt cond]
  | modifyTime id contract timeText => [id.val, contract.val, timeText.val]
  | delete id => [id.val]
  | query user status => [user.val, fmtInt status]
  | getPrices contracts => contracts.map Subtype.val
  | getEmail user => [user.val]

/-- The line it is sent as. -/
def text (c : ClientCommand) : Bytes := unwords (c.word :: c.arguments)

/-- The flag it is sent with. -/
def expectEnd : ClientCommand → Bool
  | query _ _ | getPrices _ => true
  | _ => false

variable (c : ClientCommand)

theorem plain_word : ∀ b ∈ c.word, Plain b := by
  cases c <;> dsimp only [word] <;> decide

theorem plain_arguments : ∀ s ∈ c.arguments, ∀ b ∈ s, Plain b := by
  cases c with
  | getPrices contracts =>
      intro s hs
      obtain ⟨field, -, rfl⟩ := List.mem_map.mp hs
      exact field.property
  | addPrice user contract price cond =>
      simp only [arguments, List.forall_mem_cons]
      exact ⟨user.property, contract.property, price.property, plain_fmtInt _,
        List.forall_mem_nil _⟩
  | modifyPrice id contract price cond =>
      simp only [arguments, List.forall_mem_cons]
      exact ⟨id.property, contract.property, price.property, plain_fmtInt _,
        List.forall_mem_nil _⟩
  | query user status =>
      simp only [arguments, List.forall_mem_cons]
      exact ⟨user.property, plain_fmtInt _, List.forall_mem_nil _⟩
  | login a b =>
      simp only [arguments, List.forall_mem_cons]
      exact ⟨a.property, b.property, List.forall_mem_nil _⟩
  | register a b d | setEmail a b d | addTime a b d | modifyTime a b d =>
      simp only [arguments, List.forall_mem_cons]
      exact ⟨a.property, b.property, d.property, List.forall_mem_nil _⟩
  | delete a | getEmail a => exact List.forall_mem_singleton.mpr a.property

theorem plain_text : ∀ b ∈ c.text, Plain b :=
  plain_unwords (List.forall_mem_cons.mpr ⟨c.plain_word, c.plain_arguments⟩)

theorem commandWord_text : commandWord c.text = c.word := by
  have hall : c.word.all (fun b => decide (b ≠ 32)) = true := by
    cases c <;> dsimp only [word] <;> decide
  have hword := List.all_eq_true.mp hall
  unfold text commandWord
  cases c.arguments with
  | nil =>
      rw [unwords, List.intercalate_singleton]
      exact List.takeWhile_eq_self_iff.mpr hword
  | cons s ws =>
      rw [unwords, List.intercalate_cons_cons, List.append_assoc,
        List.takeWhile_append_of_pos hword]
      exact List.append_nil _

theorem text_ne_nil : c.text ≠ [] := by
  intro hnil
  have hword := c.commandWord_text
  rw [hnil] at hword
  revert hword
  cases c <;> dsimp only [word] <;> decide

/-- The flag is set exactly for the commands that are answered with a list. -/
theorem answersList_iff : AnswersList c.text ↔ c.expectEnd = true := by
  unfold AnswersList
  rw [c.commandWord_text]
  cases c <;> dsimp only [word, expectEnd] <;> decide

theorem length_text :
    c.text.length = c.word.length + (c.arguments.map fun s => s.length + 1).sum :=
  length_unwords c.word c.arguments

theorem isToken_word : IsToken c.word := by
  have hall : c.word.all (fun b => !isSpace b) = true := by
    cases c <;> dsimp only [word] <;> decide
  refine ⟨?_, fun b hb => ?_⟩
  · cases c <;> dsimp only [word] <;> decide
  · have hb := List.all_eq_true.mp hall b hb
    rwa [Bool.not_eq_true'] at hb

theorem splitLine_text {c : ClientCommand} (h : ∀ s ∈ c.arguments, IsToken s) :
    splitLine c.text = c.word :: c.arguments :=
  splitLine_unwords (List.forall_mem_cons.mpr ⟨c.isToken_word, h⟩)

end ClientCommand

/-! ## Receiving a command -/

theorem dropCR_of_plain {line : Bytes} (h : ∀ b ∈ line, Plain b) : dropCR line = line :=
  List.filter_eq_self.mpr fun b hb => decide_eq_true (h b hb).2.2

/-- A command that is one byte too long is lost. -/
theorem received_text_nil {c : ClientCommand} (h : c.text.length = recvBufSize + 1) :
    received c.text = [] := by
  rw [received, dropCR_of_plain c.plain_text,
    overflowed_eq_nil_iff.mpr (dvd_of_eq h.symm)]
  rfl

/-- A line whose first byte is among the bytes that are left was not dropped from. -/
theorem length_le_of_overflowed {p : UInt8 → Bool} {b : UInt8} {line : Bytes}
    (hb : p b = true) (h : (overflowed (b :: line)).filter p = (b :: line).filter p) :
    (b :: line).length ≤ recvBufSize := by
  by_contra hlong
  have hdiv : 0 < (b :: line).length / (recvBufSize + 1) :=
    Nat.div_pos (Nat.lt_of_not_le hlong) (Nat.succ_pos _)
  obtain ⟨n, hn⟩ := Nat.exists_eq_succ_of_ne_zero
    (Nat.mul_pos (Nat.succ_pos recvBufSize) hdiv).ne'
  rw [overflowed, hn, List.drop_succ_cons, List.filter_cons_of_pos hb] at h
  have hshort := ((List.drop_sublist n line).filter p).length_le
  rw [h, List.length_cons] at hshort
  omega

theorem received_text_iff (c : ClientCommand) :
    received c.text = [c.text] ↔ c.text.length ≤ recvBufSize := by
  unfold received
  rw [dropCR_of_plain c.plain_text]
  constructor
  · intro h
    obtain ⟨b, line, htext⟩ := List.exists_cons_of_ne_nil c.text_ne_nil
    split at h
    · have hall := congrArg (List.filter fun _ => true) (List.cons.inj h).1
      rw [htext] at hall ⊢
      exact length_le_of_overflowed rfl hall
    · cases h
  · intro h
    rw [overflowed_of_le h, if_pos c.text_ne_nil]

/-- The session takes the command word and the arguments from the line exactly if the
arguments are tokens and the line fits the receive buffer. -/
theorem tokens_received_iff (c : ClientCommand) :
    (received c.text).map splitLine = [c.word :: c.arguments] ↔
      (∀ s ∈ c.arguments, IsToken s) ∧ c.text.length ≤ recvBufSize := by
  constructor
  · intro h
    obtain ⟨line, hline, hsplit⟩ := List.map_eq_singleton_iff.mp h
    have htokens : ∀ s ∈ c.arguments, IsToken s := fun s hs =>
      isToken_of_mem_splitLine (hsplit ▸ List.mem_cons_of_mem c.word hs)
    refine ⟨htokens, ?_⟩
    have hleft : overflowed c.text = line := by
      unfold received at hline
      rw [dropCR_of_plain c.plain_text] at hline
      split at hline
      · exact (List.cons.inj hline).1
      · cases hline
    -- The tokens hold the same bytes, so none of these has been dropped.
    have hfilter : (overflowed c.text).filter (!isSpace ·) =
        c.text.filter (!isSpace ·) := by
      rw [← flatten_splitLine, ← flatten_splitLine, hleft, hsplit]
      exact congrArg List.flatten (ClientCommand.splitLine_text htokens).symm
    obtain ⟨b, word, hword⟩ := List.exists_cons_of_ne_nil c.isToken_word.1
    have hb : isSpace b = false := c.isToken_word.2 b (hword ▸ List.mem_cons_self)
    obtain ⟨rest, hrest⟩ : c.word <+: c.text :=
      c.commandWord_text ▸ List.takeWhile_prefix _
    rw [hword, List.cons_append] at hrest
    rw [← hrest] at hfilter ⊢
    exact length_le_of_overflowed (by rw [hb]; rfl) hfilter
  · rintro ⟨htokens, hfits⟩
    rw [(received_text_iff c).mpr hfits, List.map_singleton]
    exact congrArg (fun ws => [ws]) (ClientCommand.splitLine_text htokens)

/-! ## Reading a reply -/

/-- `line.rfind(word, 0) == 0`. -/
def startsWith (word line : Bytes) : Bool := word.isPrefixOf line

/-- `SendCommand` returns after this line. -/
def stops (expectEnd : Bool) (line : Bytes) : Bool :=
  if line = ascii "END" then true
  else if startsWith (ascii "ERR") line then true
  else !expectEnd && (startsWith (ascii "OK") line || startsWith (ascii "ERR") line)

/-- `IsOk`. -/
def isOk : List Bytes → Bool
  | [] => false
  | line :: _ => startsWith (ascii "OK") line

/-- `RecvThreadProc` posts the line as WM_APP_TRIGGERED. -/
def isTriggered (line : Bytes) : Bool := startsWith (ascii "TRIGGERED") line

theorem startsWith_iff {word line : Bytes} : startsWith word line = true ↔
    word <+: line :=
  List.isPrefixOf_iff_prefix

theorem startsWith_other {word word' line : Bytes} (h : word <+: line)
    (hne : word.head? ≠ word'.head?) (hword : word ≠ [] ∧ word' ≠ []) :
    startsWith word' line = false := by
  rw [← Bool.not_eq_true, startsWith_iff]
  rintro ⟨t', rfl⟩
  obtain ⟨t, ht⟩ := h
  have hheads := congrArg List.head? ht
  rw [List.head?_append_of_ne_nil _ hword.1,
    List.head?_append_of_ne_nil _ hword.2] at hheads
  exact hne hheads

/-- The last line is the first one at which `SendCommand` stops. -/
def Complete (expectEnd : Bool) (lines : List Bytes) : Prop :=
  ∃ body last, lines = body ++ [last] ∧ stops expectEnd last ∧
    ∀ line ∈ body, stops expectEnd line = false

/-- The lines of a reply: plain, and not for the other queue. -/
def ReplyLine (line : Bytes) : Prop := (∀ b ∈ line, Plain b) ∧ isTriggered line = false

theorem complete_singleton {expectEnd : Bool} {line : Bytes} (h : stops expectEnd line) :
    Complete expectEnd [line] := ⟨[], line, rfl, h, List.forall_mem_nil _⟩

theorem IsStatus.stops {line : Bytes} (h : IsStatus line) :
    CloudAlert.stops false line = true := by
  unfold CloudAlert.stops
  rcases h.1 with hok | herr
  · simp [startsWith_iff.mpr hok]
  · simp [startsWith_iff.mpr herr]

theorem IsStatus.replyLine {line : Bytes} (h : IsStatus line) : ReplyLine line := by
  refine ⟨h.2, ?_⟩
  rcases h.1 with hok | herr
  · exact startsWith_other hok (by decide) (by decide)
  · exact startsWith_other herr (by decide) (by decide)

theorem IsItem.stops {line : Bytes} (h : IsItem line) :
    CloudAlert.stops true line = false := by
  have hend : ascii "END" <+: ascii "END" := List.prefix_rfl
  unfold CloudAlert.stops
  rcases h.1 with halert | hprice
  · have herr : startsWith (ascii "ERR") line = false :=
      startsWith_other halert (by decide) (by decide)
    rw [if_neg, herr]
    · rfl
    · rintro rfl
      exact absurd (startsWith_iff.mpr halert) (by decide)
  · have herr : startsWith (ascii "ERR") line = false :=
      startsWith_other hprice (by decide) (by decide)
    rw [if_neg, herr]
    · rfl
    · rintro rfl
      exact absurd (startsWith_iff.mpr hprice) (by decide)

theorem IsItem.replyLine {line : Bytes} (h : IsItem line) : ReplyLine line := by
  refine ⟨h.2, ?_⟩
  rcases h.1 with halert | hprice
  · exact startsWith_other halert (by decide) (by decide)
  · exact startsWith_other hprice (by decide) (by decide)

theorem StatusReply.complete {reply : Reply} (h : StatusReply reply) :
    Complete false reply.lines ∧ ∀ line ∈ reply.lines, ReplyLine line := by
  obtain ⟨resp, rfl, hstatus⟩ := h
  exact ⟨complete_singleton hstatus.stops,
    List.forall_mem_singleton.mpr hstatus.replyLine⟩

theorem ListReply.complete {reply : Reply} (h : ListReply reply)
    (hfit : reply.ended = false) :
    Complete true reply.lines ∧ ∀ line ∈ reply.lines, ReplyLine line := by
  rcases h hfit with ⟨items, hlines, hitems⟩ | ⟨resp, hlines, herr, hplain⟩
  · rw [hlines]
    refine ⟨⟨items, _, rfl, by decide, fun line hline => (hitems line hline).stops⟩, ?_⟩
    refine List.forall_mem_append.mpr
      ⟨fun line hline => (hitems line hline).replyLine, ?_⟩
    exact List.forall_mem_singleton.mpr ⟨by decide, by decide⟩
  · have hstatus : IsStatus resp := ⟨.inr herr, hplain⟩
    rw [hlines]
    refine ⟨complete_singleton ?_, List.forall_mem_singleton.mpr hstatus.replyLine⟩
    simp [stops, startsWith_iff.mpr herr]

/-- The reply to a command is complete under the flag the command is sent with, and no
line of it is a TRIGGERED line. -/
theorem reply_complete {w : World} (h : PlainTexts w.db) (self : Session)
    (c : ClientCommand) (hfit : (run exec (dispatch self c.text) w).1.2.ended = false) :
    Complete c.expectEnd (run exec (dispatch self c.text) w).1.2.lines ∧
      ∀ line ∈ (run exec (dispatch self c.text) w).1.2.lines, ReplyLine line := by
  have hexec : ∀ call w, TokenCall call → PlainTexts w.db →
      PlainTexts (exec call w).2.db ∧ PlainAnswer call (exec call w).1 :=
    fun call _ hc hw => ⟨hw.after hc, hw.answer call⟩
  by_cases hlist : AnswersList c.text
  · obtain ⟨-, hreply⟩ := (dispatch_lists self c.text hlist).run _ hexec h
    rw [c.answersList_iff.mp hlist]
    exact hreply.complete hfit
  · obtain ⟨-, hreply⟩ := (dispatch_saysStatus self c.text hlist).run _ hexec h
    rw [Bool.eq_false_iff.mpr fun h => hlist (c.answersList_iff.mpr h)]
    exact hreply.complete

end CloudAlert
