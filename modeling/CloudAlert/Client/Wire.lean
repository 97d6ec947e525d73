import CloudAlert.Text.Bytes

/-!
# Lines on a connection

`TcpClient::SendLine` ends a line with `\n`; `ClientSession::RecvLine` and
`TcpClient::RecvLine` read a line off the bytes of the connection and leave carriage
returns out. The server's drops what it has of a line when that grows beyond
`RECV_BUF_SIZE` and goes on with the next byte of the same line, so what it hands over
of a long line are its last bytes (`overflowed`).
-/

namespace CloudAlert

/-- `RECV_BUF_SIZE`. -/
def recvBufSize : ℕ := 4096

/-! ## Sending and receiving -/

/-- The bytes `TcpClient::SendLine` sends. -/
def clientSendLine (line : Bytes) : Bytes :=
  if line.getLast? = some 10 then line else line ++ [10]

/-- The bytes `ClientSession::SendLine` sends. -/
def serverSendLine (resp : Bytes) : Bytes := resp ++ [10]

/-- `ClientSession::RecvLine` on the bytes to come, after it has read `line`: the line and
the bytes after it. It is `none` when the connection ends first. -/
def serverRecvLine (line : Bytes) : Bytes → Option (Bytes × Bytes)
  | [] => none
  | ch :: rest =>
      if ch = 13 then serverRecvLine line rest
      else if ch = 10 then some (line, rest)
      else if recvBufSize < (line ++ [ch]).length then serverRecvLine [] rest
      else serverRecvLine (line ++ [ch]) rest

/-- `TcpClient::RecvLine` on the bytes to come, after it has read `line`. -/
def clientRecvLine (line : Bytes) : Bytes → Option (Bytes × Bytes)
  | [] => none
  | c :: rest =>
      if c = 10 then some (line, rest)
      else if c ≠ 13 then clientRecvLine (line ++ [c]) rest
      else clientRecvLine line rest

theorem serverRecvLine_length {line stream line' rest : Bytes}
    (h : serverRecvLine line stream = some (line', rest)) :
    rest.length < stream.length := by
  induction stream generalizing line with
  | nil => cases h
  | cons ch stream ih =>
      rw [serverRecvLine] at h
      rw [List.length_cons]
      split at h
      · exact (ih h).trans (Nat.lt_succ_self _)
      · split at h
        · obtain ⟨-, rfl⟩ := Prod.mk.inj (Option.some.inj h)
          exact Nat.lt_succ_self _
        · split at h
          · exact (ih h).trans (Nat.lt_succ_self _)
          · exact (ih h).trans (Nat.lt_succ_self _)

/-- The lines `ClientSession::Run` passes to `Dispatch`, from the bytes of the
connection. -/
def dispatchedLines (stream : Bytes) : List Bytes :=
  match _received : serverRecvLine [] stream with
  | none => []
  | some (line, rest) =>
      if line ≠ [] then line :: dispatchedLines rest else dispatchedLines rest
termination_by stream.length
decreasing_by
  · exact serverRecvLine_length ‹_›
  · exact serverRecvLine_length ‹_›

/-! ## One line -/

/-- The line without its carriage returns. -/
def dropCR (line : Bytes) : Bytes := line.filter (· ≠ 13)

/-- What is left of a line after all drops. -/
def overflowed (line : Bytes) : Bytes :=
  line.drop ((recvBufSize + 1) * (line.length / (recvBufSize + 1)))

theorem overflowed_of_le {line : Bytes} (h : line.length ≤ recvBufSize) :
    overflowed line = line := by
  rw [overflowed, Nat.div_eq_of_lt (Nat.lt_succ_of_le h), Nat.mul_zero, List.drop_zero]

/-- A drop takes a whole buffer off the front. -/
theorem overflowed_append {line : Bytes} (h : line.length = recvBufSize + 1)
    (line' : Bytes) : overflowed (line ++ line') = overflowed line' := by
  have hpos : 0 < recvBufSize + 1 := Nat.succ_pos _
  rw [overflowed, overflowed, List.length_append, h,
    Nat.add_div_left _ hpos, Nat.mul_succ, Nat.add_comm, ← List.drop_drop,
    ← h, List.drop_left]

theorem overflowed_eq_nil_iff {line : Bytes} :
    overflowed line = [] ↔ recvBufSize + 1 ∣ line.length := by
  rw [overflowed, List.drop_eq_nil_iff]
  have hdiv := Nat.div_add_mod line.length (recvBufSize + 1)
  rw [Nat.dvd_iff_mod_eq_zero]
  omega

theorem serverRecvLine_line {line body : Bytes} (h : 10 ∉ body)
    (hline : line.length ≤ recvBufSize) (rest : Bytes) :
    serverRecvLine line (body ++ 10 :: rest) =
      some (overflowed (line ++ dropCR body), rest) := by
  induction body generalizing line with
  | nil =>
      rw [List.nil_append, serverRecvLine, if_neg (by decide), if_pos rfl]
      simp only [dropCR, List.filter_nil, List.append_nil, overflowed_of_le hline]
  | cons ch body ih =>
      have hbody : 10 ∉ body := List.not_mem_of_not_mem_cons h
      have hch : ch ≠ 10 := fun heq => h (heq ▸ List.mem_cons_self)
      rw [List.cons_append, serverRecvLine]
      by_cases hcr : ch = 13
      · have hskip : dropCR (ch :: body) = dropCR body :=
          List.filter_cons_of_neg (by simpa using hcr)
        rw [if_pos hcr, ih hbody hline, hskip]
      · have hkept : dropCR (ch :: body) = ch :: dropCR body :=
          List.filter_cons_of_pos (by simpa using hcr)
        have hmove : line ++ ch :: dropCR body = (line ++ [ch]) ++ dropCR body := by simp
        rw [if_neg hcr, if_neg hch, hkept, hmove]
        have hlength : (line ++ [ch]).length = line.length + 1 := by simp
        split
        · rename_i hover
          have hfull : (line ++ [ch]).length = recvBufSize + 1 := by omega
          rw [ih hbody (Nat.zero_le _), List.nil_append, overflowed_append hfull]
        · rename_i hroom
          exact ih hbody (not_lt.mp hroom)

theorem clientRecvLine_line {line body : Bytes} (h : 10 ∉ body) (rest : Bytes) :
    clientRecvLine line (body ++ 10 :: rest) = some (line ++ dropCR body, rest) := by
  induction body generalizing line with
  | nil =>
      rw [List.nil_append, clientRecvLine, if_pos rfl, dropCR, List.filter_nil,
        List.append_nil]
  | cons c body ih =>
      have hbody : 10 ∉ body := List.not_mem_of_not_mem_cons h
      have hc : c ≠ 10 := fun heq => h (heq ▸ List.mem_cons_self)
      rw [List.cons_append, clientRecvLine, if_neg hc]
      by_cases hcr : c = 13
      · have hskip : dropCR (c :: body) = dropCR body :=
          List.filter_cons_of_neg (by simpa using hcr)
        rw [if_neg (not_not.mpr hcr), ih hbody, hskip]
      · have hkept : dropCR (c :: body) = c :: dropCR body :=
          List.filter_cons_of_pos (by simpa using hcr)
        rw [if_pos hcr, ih hbody, hkept, List.append_assoc, List.singleton_append]

theorem clientRecvLine_append {line stream line' rest : Bytes} (more : Bytes)
    (h : clientRecvLine line stream = some (line', rest)) :
    clientRecvLine line (stream ++ more) = some (line', rest ++ more) := by
  induction stream generalizing line with
  | nil => cases h
  | cons c stream ih =>
      rw [clientRecvLine] at h
      rw [List.cons_append, clientRecvLine]
      split at h
      · rename_i hnewline
        obtain ⟨rfl, rfl⟩ := Prod.mk.inj (Option.some.inj h)
        rw [if_pos hnewline]
      · rename_i hother
        rw [if_neg hother]
        split at h
        · rename_i hkept
          rw [if_pos hkept]
          exact ih h
        · rename_i hskipped
          rw [if_neg hskipped]
          exact ih h

/-! ## The stream -/

/-- What the session makes of a sent line. -/
def received (line : Bytes) : List Bytes :=
  if overflowed (dropCR line) ≠ [] then [overflowed (dropCR line)] else []

/-- The session gets the lines one by one. -/
theorem dispatchedLines_sent {lines : List Bytes} (h : ∀ line ∈ lines, 10 ∉ line) :
    dispatchedLines (lines.flatMap clientSendLine) = lines.flatMap received := by
  induction lines with
  | nil =>
      rw [List.flatMap_nil, dispatchedLines]
      rfl
  | cons line lines ih =>
      have hline : 10 ∉ line := h line List.mem_cons_self
      have hrest := ih fun line' hmem => h line' (List.mem_cons_of_mem _ hmem)
      have hlast : line.getLast? ≠ some 10 := fun heq =>
        hline (List.mem_of_getLast? heq)
      have hrecv : serverRecvLine [] ((line :: lines).flatMap clientSendLine) =
          some (overflowed (dropCR line), lines.flatMap clientSendLine) := by
        rw [List.flatMap_cons, clientSendLine, if_neg hlast, List.append_assoc]
        exact serverRecvLine_line hline (Nat.zero_le _) _
      rw [dispatchedLines]
      split
      · rename_i hnone
        rw [hrecv] at hnone
        cases hnone
      · rename_i line' rest hsome
        rw [hrecv] at hsome
        obtain ⟨rfl, rfl⟩ := Prod.mk.inj (Option.some.inj hsome)
        rw [hrest, List.flatMap_cons]
        unfold received
        split <;> rfl

/-- What the session is to make of a sent line: nothing if it is empty or oversized. -/
def intended (line : Bytes) : List Bytes :=
  if dropCR line ≠ [] ∧ (dropCR line).length ≤ recvBufSize then [dropCR line] else []

theorem flatMap_intended (lines : List Bytes) :
    lines.flatMap intended =
      (lines.map dropCR).filter fun c => c ≠ [] ∧ c.length ≤ recvBufSize := by
  induction lines with
  | nil => rfl
  | cons line lines ih =>
      rw [List.flatMap_cons, List.map_cons, List.filter_cons, ih]
      unfold intended
      by_cases h : dropCR line ≠ [] ∧ (dropCR line).length ≤ recvBufSize
      · rw [if_pos h, if_pos (decide_eq_true h)]
        rfl
      · rw [if_neg h, if_neg (by simpa using h)]
        rfl

theorem received_eq_intended_iff (line : Bytes) :
    received line = intended line ↔
      (dropCR line).length ≤ recvBufSize ∨ recvBufSize + 1 ∣ (dropCR line).length := by
  unfold received intended
  by_cases hle : (dropCR line).length ≤ recvBufSize
  · rw [overflowed_of_le hle]
    refine iff_of_true ?_ (.inl hle)
    by_cases hnil : dropCR line = []
    · rw [if_neg (not_not.mpr hnil), if_neg fun h => h.1 hnil]
    · rw [if_pos hnil, if_pos ⟨hnil, hle⟩]
  · have hnone : ¬ (dropCR line ≠ [] ∧ (dropCR line).length ≤ recvBufSize) :=
      fun h => hle h.2
    rw [if_neg hnone, ← overflowed_eq_nil_iff]
    by_cases hnil : overflowed (dropCR line) = []
    · exact iff_of_true (if_neg (not_not.mpr hnil)) (.inr hnil)
    · rw [if_pos hnil]
      exact iff_of_false (by simp) fun h => h.elim hle hnil

theorem length_intended_le (line : Bytes) :
    (intended line).length ≤ (received line).length := by
  unfold intended
  split
  · rename_i h
    rw [received, overflowed_of_le h.2, if_pos h.1]
  · exact Nat.zero_le _

/-- Two ways to expand a list, one never shorter than the other, agree on the list when
they agree on each of its elements. -/
theorem flatMap_eq_flatMap_iff {α β : Type*} {f g : α → List β}
    (hlength : ∀ a, (g a).length ≤ (f a).length) (l : List α) :
    l.flatMap f = l.flatMap g ↔ ∀ a ∈ l, f a = g a := by
  have htotal : ∀ l : List α, (l.flatMap g).length ≤ (l.flatMap f).length := by
    intro l
    induction l with
    | nil => exact Nat.le_refl _
    | cons a l ih =>
        rw [List.flatMap_cons, List.flatMap_cons, List.length_append, List.length_append]
        exact Nat.add_le_add (hlength a) ih
  induction l with
  | nil => exact iff_of_true rfl nofun
  | cons a l ih =>
      rw [List.flatMap_cons, List.flatMap_cons, List.forall_mem_cons]
      constructor
      · intro h
        have hsum := congrArg List.length h
        rw [List.length_append, List.length_append] at hsum
        have hfirst := hlength a
        have hrest := htotal l
        obtain ⟨heq, htail⟩ := List.append_inj h (by omega)
        exact ⟨heq, ih.mp htail⟩
      · rintro ⟨hfirst, hrest⟩
        rw [hfirst, ih.mpr hrest]

/-- The lines dispatched are the sent ones without their carriage returns and without the
empty and the oversized ones, exactly if the length of every oversized line is a multiple
of 4097. -/
theorem dispatchedLines_iff (lines : List Bytes) (h : ∀ line ∈ lines, 10 ∉ line) :
    dispatchedLines (lines.flatMap clientSendLine) =
        ((lines.map dropCR).filter fun c => c ≠ [] ∧ c.length ≤ recvBufSize) ↔
      ∀ line ∈ lines, (dropCR line).length ≤ recvBufSize ∨
        recvBufSize + 1 ∣ (dropCR line).length := by
  rw [dispatchedLines_sent h, ← flatMap_intended,
    flatMap_eq_flatMap_iff length_intended_le]
  exact forall₂_congr fun line _ => received_eq_intended_iff line

/-- 4097 times `x`, then a command. -/
def longLine : Bytes := List.replicate (recvBufSize + 1) 120 ++ ascii "DELETE 1"

theorem dropCR_longLine : dropCR longLine = longLine := by
  refine List.filter_eq_self.mpr fun ch hmem => ?_
  rcases List.mem_append.mp hmem with hx | hcommand
  · rw [List.eq_of_mem_replicate hx]
    rfl
  · exact (by decide +kernel : ∀ ch ∈ ascii "DELETE 1", decide (ch ≠ 13) = true) ch
      hcommand

theorem newline_notMem_longLine : ∀ line ∈ [longLine], 10 ∉ line := by
  intro line hline hmem
  rw [List.mem_singleton.mp hline] at hmem
  rcases List.mem_append.mp hmem with hx | hcommand
  · exact absurd (List.eq_of_mem_replicate hx) (by decide)
  · exact absurd hcommand (by decide)

/-- The end of the oversized line is dispatched as a command of its own. -/
theorem tail_of_long_line_is_dispatched :
    dispatchedLines ([longLine].flatMap clientSendLine) = [ascii "DELETE 1"] ∧
      (([longLine].map dropCR).filter fun c => c ≠ [] ∧ c.length ≤ recvBufSize) = [] := by
  have hlength : longLine.length = recvBufSize + 9 := by
    rw [longLine, List.length_append, List.length_replicate]
    rfl
  have htail : overflowed longLine = ascii "DELETE 1" := by
    rw [longLine, overflowed_append List.length_replicate]
    exact overflowed_of_le (by decide +kernel)
  constructor
  · rw [dispatchedLines_sent newline_notMem_longLine, List.flatMap_singleton, received,
      dropCR_longLine, htail]
    rfl
  · rw [List.map_singleton, dropCR_longLine]
    refine List.filter_eq_nil_iff.mpr fun c hc => ?_
    rw [List.mem_singleton.mp hc, hlength]
    simp

/-- Short lines with carriage returns. -/
theorem short_lines_are_dispatched :
    dispatchedLines ([ascii "LOGIN ann pw\r", [], [13], ascii "DELETE 1"].flatMap
      clientSendLine) = [ascii "LOGIN ann pw", ascii "DELETE 1"] :=
  (dispatchedLines_iff _ (by decide +kernel)).mpr (by decide +kernel)

end CloudAlert
