import Mathlib.Data.List.Sort
import CloudAlert.Client.EditForm
import CloudAlert.Session.Buffers

/-!
# Current prices

`RefreshCurrentPrices` asks for the contracts of the list, each once and in order, and
puts the prices of the reply into the column of the current price. Where the lines of the
reply fit their buffer, the column is the last price the server has of the contract of
each row (`run_dispatch_getPrices`, `currentPrices_quotes`), whatever was in it before.
-/

namespace CloudAlert

open Program

/-! ## Commands that are answered in time -/

/-- The lines that `SendCommand` takes for the reply; a TRIGGERED line goes to the other
queue. It is `none` when the reply is not complete. -/
def takeReply (expectEnd : Bool) : List Bytes → Option (List Bytes)
  | [] => none
  | line :: rest =>
      if isTriggered line then takeReply expectEnd rest
      else if stops expectEnd line then some [line]
      else (takeReply expectEnd rest).map (line :: ·)

/-- What `SendCommand` returns when the session `self` is at the other end, reads what it
is sent and answers in time. -/
def promptReply (w : World) (self : Session) (c : ClientCommand) : Option (List Bytes) :=
  match received c.text with
  | line :: _ => takeReply c.expectEnd (run exec (dispatch self line) w).1.2.lines
  | [] => none

theorem mem_of_takeReply {expectEnd : Bool} {lines taken : List Bytes}
    (h : takeReply expectEnd lines = some taken) : ∀ line ∈ taken, line ∈ lines := by
  induction lines generalizing taken with
  | nil => cases h
  | cons line lines ih =>
      rw [takeReply] at h
      split at h
      · exact fun l hl => List.mem_cons_of_mem _ (ih h l hl)
      · split at h
        · obtain rfl := Option.some.inj h
          exact List.forall_mem_singleton.mpr List.mem_cons_self
        · obtain ⟨rest, hrest, rfl⟩ := Option.map_eq_some_iff.mp h
          exact List.forall_mem_cons.mpr ⟨List.mem_cons_self,
            fun l hl => List.mem_cons_of_mem _ (ih hrest l hl)⟩

theorem takeReply_complete {expectEnd : Bool} {lines : List Bytes}
    (hcomplete : Complete expectEnd lines) (hreply : ∀ line ∈ lines, ReplyLine line) :
    takeReply expectEnd lines = some lines := by
  obtain ⟨body, last, rfl, hlast, hbody⟩ := hcomplete
  induction body with
  | nil =>
      have hline := hreply last List.mem_cons_self
      rw [List.nil_append, takeReply, hline.2, if_neg Bool.false_ne_true, if_pos hlast]
  | cons line body ih =>
      obtain ⟨hline, hrest⟩ := List.forall_mem_cons.mp hreply
      obtain ⟨hgoes, hbody⟩ := List.forall_mem_cons.mp hbody
      rw [List.cons_append, takeReply, hline.2, if_neg Bool.false_ne_true, hgoes,
        if_neg Bool.false_ne_true, ih hrest hbody]
      rfl

/-- The lines are a reply that `SendCommand` takes as it is. -/
structure Taken (expectEnd : Bool) (lines : List Bytes) : Prop where
  complete : Complete expectEnd lines
  replyLine : ∀ line ∈ lines, ReplyLine line

theorem IsStatus.taken {line : Bytes} (h : IsStatus line) : Taken false [line] where
  complete := complete_singleton h.stops
  replyLine := List.forall_mem_singleton.mpr h.replyLine

theorem taken_items {items : List Bytes} (h : ∀ line ∈ items, IsItem line) :
    Taken true (items ++ [ascii "END"]) where
  complete := ⟨items, _, rfl, by decide, fun line hline => (h line hline).stops⟩
  replyLine := List.forall_mem_append.mpr ⟨fun line hline => (h line hline).replyLine,
    List.forall_mem_singleton.mpr ⟨by decide, by decide⟩⟩

/-- Such a reply to a command that fits the receive buffer is returned as it is. -/
theorem promptReply_eq {w : World} {self : Session} {c : ClientCommand}
    {lines : List Bytes} (hfits : c.text.length ≤ recvBufSize)
    (hlines : (run exec (dispatch self c.text) w).1.2.lines = lines)
    (htaken : Taken c.expectEnd lines) : promptReply w self c = some lines := by
  unfold promptReply
  rw [(received_text_iff c).mpr hfits]
  dsimp only
  rw [hlines, takeReply_complete htaken.complete htaken.replyLine]

/-! ## `RefreshCurrentPrices` -/

/-- The `std::set` of the contracts in the list. -/
def listedContracts (rows : List AlertRow) : List Field :=
  let contracts := rows.map fun row => trim (editText row.contract)
  (contracts.filter fun contract => contract.val ≠ []).eraseDups.insertionSort fun a b =>
    a.val ≤ b.val

/-- The list, and the counter `updated`. -/
structure PriceView where
  rows : List AlertRow
  updated : ℕ

/-- The loop body of `RefreshCurrentPrices`. -/
def PriceView.show (view : PriceView) (line : Bytes) : PriceView :=
  if ¬ startsWith (ascii "PRICE ") line then view
  else
    match clientSplit line with
    | _ :: contract :: price :: _ =>
        let shown := cstr (formatPriceText price)
        let here := fun row : AlertRow => row.contract = cstr contract
        { rows := view.rows.map fun row => if here row then { row with
              current := shown } else row
          updated := view.updated +
            if shown.val = ascii "-" then 0 else view.rows.countP fun row => here row }
    | _ => view

/-- `CMainFrame::RefreshCurrentPrices` after `SendCommand`: the list, and the text it sets
the status to, if it does. -/
def currentPrices (rows : List AlertRow) :
    Option (List Bytes) → List AlertRow × Option String
  | none => (rows, some "Current prices unavailable: price query timed out.")
  | some lines =>
      if (lines.head?.map (startsWith (ascii "ERR"))).getD false then
        (rows, some "Current prices unavailable: please restart the updated Server.exe.")
      else
        let view := lines.foldl PriceView.show ⟨rows, 0⟩
        (view.rows, if view.updated = 0 then
          some "Current prices waiting for CTP market data ticks." else none)

/-! ## What the column shows -/

/-- A price in the column: two decimals, or a dash where there is none. -/
def priceWord : Option ℚ → Bytes
  | some p => fmtPrice p
  | none => ascii "-"

/-- The row with the last price of its contract. -/
def AlertRow.priced (prices : Bytes → Option ℚ) (row : AlertRow) : AlertRow :=
  { row with current := cstr (priceWord (prices row.contract)) }

/-- The PRICE line of a contract. -/
def quoteLine (prices : Bytes → Option ℚ) (contract : Bytes) : Bytes :=
  unwords [ascii "PRICE", contract, priceWord (prices contract)]

theorem priceLine_eq (contract : Bytes) (lastPrice : Option ℚ) :
    priceLine contract lastPrice =
      snprintf 256 (unwords [ascii "PRICE", cstr contract, priceWord lastPrice]) := by
  cases lastPrice <;> rfl

theorem isToken_priceWord (lastPrice : Option ℚ) : IsToken (priceWord lastPrice) := by
  cases lastPrice with
  | none => exact (by decide : IsToken (ascii "-"))
  | some p => exact isToken_fmtPrice p

theorem formatPriceText_priceWord (lastPrice : Option ℚ) :
    formatPriceText (priceWord lastPrice) = priceWord lastPrice := by
  cases lastPrice with
  | none => exact (by decide : formatPriceText (ascii "-") = ascii "-")
  | some p => exact formatPriceText_fmtPrice p

theorem plain_priceWord (lastPrice : Option ℚ) : ∀ b ∈ priceWord lastPrice, Plain b := by
  cases lastPrice with
  | none => exact (by decide : ∀ b ∈ ascii "-", Plain b)
  | some p => exact plain_fmtPrice p

theorem priceWord_eq_dash (lastPrice : Option ℚ) :
    (cstr (priceWord lastPrice)).val = ascii "-" ↔ lastPrice = none := by
  rw [cstr_of_plain (plain_priceWord lastPrice)]
  cases lastPrice with
  | none => exact iff_of_true rfl rfl
  | some p =>
      refine iff_of_false (fun h => ?_) (by simp)
      have hlength : 4 ≤ (fmtPrice p).length := by
        rw [fmtPrice_length, priceWidth, natWidth]
        omega
      have hdash : (fmtPrice p).length = 1 := congrArg List.length h
      omega

theorem priceLine_some {contract : Bytes} (h : IsField contract)
    {prices : Bytes → Option ℚ}
    (hfits : priceLineWidth contract (prices contract) < 256) :
    priceLine contract (prices contract) = some (quoteLine prices contract) := by
  have hval : (cstr contract).val = contract := (cstr_val_eq_iff contract).mpr h.2
  cases hprinted : priceLine contract (prices contract) with
  | none => exact absurd ((priceLine_eq_none _ _).mp hprinted) (Nat.not_le.mpr hfits)
  | some line =>
      rw [priceLine_eq, hval] at hprinted
      rw [snprintf_eq_some hprinted, quoteLine]

section

variable (prices : Bytes → Option ℚ)

theorem show_quoteLine {contract : Bytes} (h : IsField contract) (view : PriceView) :
    view.show (quoteLine prices contract) =
      { rows := view.rows.map fun row =>
          if row.contract.val = contract then row.priced prices else row
        updated := view.updated + if prices contract = none then 0
          else view.rows.countP fun row => row.contract.val = contract } := by
  have hprefix : startsWith (ascii "PRICE ") (quoteLine prices contract) = true := by
    rw [startsWith_iff]
    exact ⟨_, rfl⟩
  have hsplit : clientSplit (quoteLine prices contract) =
      [ascii "PRICE", contract, priceWord (prices contract)] := by
    refine splitLine_unwords ?_
    simp only [List.forall_mem_cons]
    exact ⟨by decide, h.1, isToken_priceWord _, List.forall_mem_nil _⟩
  have hhere : ∀ row : AlertRow, row.contract = cstr contract ↔
      row.contract.val = contract := by
    intro row
    rw [← (cstr_val_eq_iff contract).mpr h.2, cstr_val]
    exact Subtype.ext_iff
  unfold PriceView.show
  rw [if_neg (not_not.mpr hprefix), hsplit]
  dsimp only
  simp only [formatPriceText_priceWord, priceWord_eq_dash, hhere]
  congr 1
  refine List.map_congr_left fun row _ => ?_
  split
  · rename_i hrow
    rw [AlertRow.priced, hrow]
  · rfl

theorem foldl_show {contracts : List Bytes} (h : ∀ c ∈ contracts, IsField c)
    (view : PriceView) :
    ((contracts.map (quoteLine prices)).foldl PriceView.show view).rows =
        view.rows.map (fun row =>
          if row.contract.val ∈ contracts then row.priced prices else row) ∧
      (((contracts.map (quoteLine prices)).foldl PriceView.show view).updated = 0 ↔
        view.updated = 0 ∧ ∀ row ∈ view.rows, row.contract.val ∈ contracts →
          prices row.contract = none) := by
  induction contracts generalizing view with
  | nil => simp
  | cons c contracts ih =>
      obtain ⟨hc, hcontracts⟩ := List.forall_mem_cons.mp h
      rw [List.map_cons, List.foldl_cons, show_quoteLine prices hc]
      obtain ⟨hrows, hupdated⟩ := ih hcontracts (PriceView.mk (view.rows.map fun row =>
        if row.contract.val = c then row.priced prices else row) (view.updated +
          if prices c = none then 0 else view.rows.countP fun row =>
            row.contract.val = c))
      have hkept : ∀ row : AlertRow,
          (if row.contract.val = c then row.priced prices else row).contract =
          row.contract := by
        intro row
        split <;> rfl
      refine ⟨hrows.trans ?_, hupdated.trans ?_⟩
      · rw [List.map_map]
        refine List.map_congr_left fun row _ => ?_
        simp only [Function.comp_apply, hkept, List.mem_cons]
        by_cases hrow : row.contract.val = c
        · rw [if_pos hrow, if_pos (Or.inl hrow)]
          split <;> rfl
        · simp [hrow]
      · have hcount : (if prices c = none then 0
              else view.rows.countP fun row => row.contract.val = c) = 0 ↔
            ∀ row ∈ view.rows, row.contract.val = c → prices row.contract = none := by
          split
          · rename_i hnone
            exact iff_of_true rfl fun row _ hrow => by rw [hrow, hnone]
          · rename_i hsome
            rw [List.countP_eq_zero]
            refine forall₂_congr fun row _ => ?_
            rw [decide_eq_true_iff]
            exact ⟨fun hne hrow => absurd hrow hne,
              fun hnone hrow => absurd (hrow ▸ hnone hrow) hsome⟩
        simp only [List.forall_mem_map, hkept, List.mem_cons, Nat.add_eq_zero_iff, hcount,
          or_imp, forall_and, and_assoc]

end

/-! ## GET_PRICES -/

theorem mem_listedContracts {rows : List AlertRow}
    (h : ∀ row ∈ rows, IsToken row.contract.val) (c : Bytes) :
    c ∈ (listedContracts rows).map Subtype.val ↔ ∃ row ∈ rows, row.contract.val = c := by
  have htrim : ∀ row ∈ rows, (trim (editText row.contract)).val = row.contract.val :=
    fun row hrow => trim_editText (h row hrow).2
  simp only [listedContracts, List.mem_map, List.mem_insertionSort, List.mem_eraseDups,
    List.mem_filter]
  constructor
  · rintro ⟨contract, ⟨⟨row, hrow, rfl⟩, -⟩, rfl⟩
    exact ⟨row, hrow, (htrim row hrow).symm⟩
  · rintro ⟨row, hrow, rfl⟩
    refine ⟨_, ⟨⟨row, hrow, rfl⟩, decide_eq_true ?_⟩, htrim row hrow⟩
    rw [htrim row hrow]
    exact (h row hrow).1

/-- The loop of `HandleGetPrices` when every line fits its buffer. -/
theorem run_getPricesLoop (self : Session) {contracts : List Bytes} {w : World}
    (hfields : ∀ c ∈ contracts, IsField c)
    (hfits : ∀ c ∈ contracts, priceLineWidth c (w.lastPrices c) < 256)
    (sent : List Bytes) : (run exec (getPricesLoop self contracts sent) w).1 =
        (self, ⟨sent ++ contracts.map (quoteLine w.lastPrices) ++ [ascii "END"], false⟩) ∧
      (run exec (getPricesLoop self contracts sent) w).2.db = w.db ∧
      (w.marketData = true → ∀ c ∈ contracts,
        c ∈ (run exec (getPricesLoop self contracts sent) w).2.subscribed) ∧
      ∀ c ∈ w.subscribed,
      c ∈ (run exec (getPricesLoop self contracts sent) w).2.subscribed := by
  induction contracts generalizing w sent with
  | nil =>
      refine ⟨?_, rfl, fun _ => List.forall_mem_nil _, fun c hc => hc⟩
      rw [List.map_nil, List.append_nil]
      rfl
  | cons c contracts ih =>
      obtain ⟨hc, hfields⟩ := List.forall_mem_cons.mp hfields
      obtain ⟨hfit, hfits⟩ := List.forall_mem_cons.mp hfits
      obtain ⟨w', hw'⟩ : ∃ w', w' = (exec (.subscribe c) w).2 := ⟨_, rfl⟩
      have hprices : w'.lastPrices = w.lastPrices ∧ w'.marketData = w.marketData ∧
          w'.db = w.db := by
        rw [hw']
        simp only [exec, execWith]
        split <;> exact ⟨rfl, rfl, rfl⟩
      have hsubscribed : (∀ d ∈ w.subscribed, d ∈ w'.subscribed) ∧
          (w.marketData = true → c ∈ w'.subscribed) := by
        rw [hw']
        cases hdata : w.marketData with
        | true =>
            simp only [exec, execWith, hdata, if_true, (cstr_val_eq_iff c).mpr hc.2]
            exact ⟨fun d => List.mem_append_left _, fun _ => List.mem_concat_self⟩
        | false => simp [exec, execWith, hdata]
      obtain ⟨hreply, hdb, hlisted, hkept⟩ := ih (w := w') hfields
        (fun d hd => by rw [hprices.1]; exact hfits d hd)
        (sent ++ [quoteLine w.lastPrices c])
      rw [hprices.1] at hreply
      rw [hprices.2.1] at hlisted
      have hrun : run exec (getPricesLoop self (c :: contracts) sent) w =
          run exec (getPricesLoop self contracts (sent ++ [quoteLine w.lastPrices c]))
            w' := by
        rw [getPricesLoop_cons self hc.1.1, run_call, ← hw', run_call]
        change run exec ((priceLine c (w'.lastPrices c)).elim _ _) w' = _
        rw [hprices.1, priceLine_some hc hfit]
        rfl
      rw [hrun, hreply]
      refine ⟨?_, hdb.trans hprices.2.2, fun hdata => List.forall_mem_cons.mpr
          ⟨hkept _ (hsubscribed.2 hdata), hlisted hdata⟩, fun d hd =>
          hkept d (hsubscribed.1 d hd)⟩
      simp

section

variable {w : World} {self : Session} {rows : List AlertRow}

/-- The lines of the reply to GET_PRICES for the rows. -/
def quotes (w : World) (rows : List AlertRow) : List Bytes :=
  ((listedContracts rows).map Subtype.val).map (quoteLine w.lastPrices)

theorem isField_listed (htoken : ∀ row ∈ rows, IsToken row.contract.val) :
    ∀ c ∈ (listedContracts rows).map Subtype.val, IsField c := by
  intro c hc
  obtain ⟨row, hrow, rfl⟩ := (mem_listedContracts htoken c).mp hc
  exact ⟨htoken row hrow, row.contract.property⟩

/-- The session answers with a PRICE line for each contract of the rows and subscribes it,
when the lines fit their buffer. -/
theorem run_dispatch_getPrices (hself : 0 ≤ self.userId) (hne : rows ≠ [])
    (htoken : ∀ row ∈ rows, IsToken row.contract.val)
    (hlines : ∀ row ∈ rows, priceLineWidth row.contract
      (w.lastPrices row.contract) < 256) :
    let out := run exec
      (dispatch self (ClientCommand.getPrices (listedContracts rows)).text) w
    out.1 = (self, ⟨quotes w rows ++ [ascii "END"], false⟩) ∧ out.2.db = w.db ∧
      (w.marketData = true → ∀ row ∈ rows, row.contract.val ∈ out.2.subscribed) ∧
      Taken true (quotes w rows ++ [ascii "END"]) := by
  have hfields := isField_listed htoken
  have hrow : ∀ row ∈ rows, row.contract.val ∈ (listedContracts rows).map Subtype.val :=
    fun row h => (mem_listedContracts htoken _).mpr ⟨row, h, rfl⟩
  have hwidth : ∀ t ∈ (listedContracts rows).map Subtype.val,
      priceLineWidth t (w.lastPrices t) < 256 := by
    intro t ht
    obtain ⟨row, hrow, rfl⟩ := (mem_listedContracts htoken t).mp ht
    exact hlines row hrow
  obtain ⟨t, rest, hcons⟩ :
      ∃ t rest, (listedContracts rows).map Subtype.val = t :: rest := by
    obtain ⟨row, h⟩ := List.exists_mem_of_ne_nil rows hne
    exact List.exists_cons_of_ne_nil (List.ne_nil_of_mem (hrow row h))
  obtain ⟨c, hc⟩ : ∃ c, c = ClientCommand.getPrices (listedContracts rows) := ⟨_, rfl⟩
  have hwords : splitLine c.text =
      ascii "GET_PRICES" :: (listedContracts rows).map Subtype.val := by
    rw [hc]
    exact ClientCommand.splitLine_text fun t ht => (hfields t ht).1
  have hword : commandWord c.text = ascii "GET_PRICES" := by
    rw [c.commandWord_text, hc]
    rfl
  have hdispatch : dispatch self c.text =
      getPricesLoop self ((listedContracts rows).map Subtype.val) [] := by
    rw [dispatch_getPrices self c.text (.inr hword), handleGetPrices,
      if_neg (not_lt.mpr hself), hwords, hcons]
  obtain ⟨hreply, hdb, hlisted, -⟩ := run_getPricesLoop self hfields hwidth []
  rw [← hdispatch, hc] at hreply hdb hlisted
  refine ⟨hreply, hdb, fun hdata row h => hlisted hdata _ (hrow row h), taken_items ?_⟩
  intro line hline
  obtain ⟨t, ht, rfl⟩ := List.mem_map.mp hline
  exact priceLine_isItem (hfields t ht).1.2 (priceLine_some (hfields t ht) (hwidth t ht))

theorem currentPrices_quotes (htoken : ∀ row ∈ rows, IsToken row.contract.val) :
    currentPrices rows (some (quotes w rows ++ [ascii "END"])) =
      (rows.map (AlertRow.priced w.lastPrices),
        if ∀ row ∈ rows, w.lastPrices row.contract = none then
          some "Current prices waiting for CTP market data ticks." else none) := by
  have hrow : ∀ row ∈ rows, row.contract.val ∈ (listedContracts rows).map Subtype.val :=
    fun row h => (mem_listedContracts htoken _).mpr ⟨row, h, rfl⟩
  have hhead : (((quotes w rows ++ [ascii "END"]).head?).map
      (startsWith (ascii "ERR"))).getD false = false := by
    unfold quotes
    cases (listedContracts rows).map Subtype.val with
    | nil => exact (by decide : startsWith (ascii "ERR") (ascii "END") = false)
    | cons t rest =>
        have hprice : ascii "PRICE" <+: quoteLine w.lastPrices t := ⟨_, rfl⟩
        exact startsWith_other hprice (by decide) (by decide)
  have hend : ∀ view : PriceView, view.show (ascii "END") = view := fun view =>
    if_pos (by decide)
  obtain ⟨hrows, hupdated⟩ := foldl_show w.lastPrices (isField_listed htoken) ⟨rows, 0⟩
  rw [currentPrices, if_neg (Bool.eq_false_iff.mp hhead)]
  simp only [quotes, List.foldl_append, List.foldl_cons, List.foldl_nil, hend,
    hrows, hupdated, true_and]
  have hall : (∀ row ∈ rows, row.contract.val ∈ (listedContracts rows).map Subtype.val →
        w.lastPrices row.contract = none) ↔
      ∀ row ∈ rows, w.lastPrices row.contract = none :=
    forall₂_congr fun row h => imp_iff_right (hrow row h)
  simp only [hall]
  congr 1
  exact List.map_congr_left fun row h => if_pos (hrow row h)

end

end CloudAlert
