import CloudAlert.Client.Login

/-!
# What LoginUser returns

`Answering` says how far the server is with a LOGIN, and `LoginPhase` how far `LoginUser`
is; `LoginOk` is what every undisturbed action keeps. `loginUser_returns_verdict` says
that in undisturbed runs `LoginUser` returns what the server has decided and no TRIGGERED
line is lost; `accepted_login_returns_false` is a run where the worker's line comes before
the OK.
-/

namespace CloudAlert

open Program

/-! ## The invariant -/

/-- How far the server is with the LOGIN; `reply` is its reply once that has been sent. -/
inductive Answering (s : Login) : Option Bytes → Prop where
  | coming {user password : Field}
      (hlength : (ClientCommand.login user password).text.length ≤ recvBufSize)
      (hserver : s.toServer = clientSendLine (ClientCommand.login user password).text)
      (hhandler : s.handler = none) (hunsent : s.unsent = [])
      (hverdict : s.verdict = none) :
      Answering s none
  | handling {p : Handler} (hserver : s.toServer = []) (hhandler : s.handler = some p)
      (hunsent : s.unsent = []) (hdecides : Decides p s.verdict) : Answering s none
  | replying {line : Bytes} (hserver : s.toServer = []) (hhandler : s.handler = none)
      (hunsent : s.unsent = [line]) (hline : VerdictLine s.verdict line) :
      Answering s none
  | replied {line : Bytes} (hserver : s.toServer = []) (hhandler : s.handler = none)
      (hunsent : s.unsent = []) (hline : VerdictLine s.verdict line) :
      Answering s (some line)

/-- The main thread is in `SendCommand` and has not read a line yet. -/
def LoginUser.Waits : LoginUser → Prop
  | .checking _ lines | .receiving _ lines => lines = []
  | _ => False

/-- How far `LoginUser` is, when `pushes` are the TRIGGERED lines on the connection. -/
inductive LoginPhase (s : Login) (pushes : List Bytes) : Prop where
  | quiet (hclient : s.client = .idle) (hserver : s.toServer = [])
      (hhandler : s.handler = none)
      (hunsent : s.unsent = []) (hbytes : s.toClient = []) (hpushes : pushes = [])
      (hverdict : s.verdict ≠ some true) (hreturned : s.returned ≠ some true)
  | waiting {reply : Option Bytes} (hclient : s.client.Waits)
      (hreturned : s.returned = none) (hanswering : Answering s reply)
      (hbytes : s.toClient = (reply.toList ++ pushes).flatMap serverSendLine)
      (hearly : pushes ≠ [] → s.verdict = some true ∧ reply ≠ none)
  | gaveUp {reply : Option Bytes} (hclient : s.client = .idle)
      (hreturned : s.returned = some false) (hanswering : Answering s reply)
      (hbytes : s.toClient = reply.toList.flatMap serverSendLine) (hpushes : pushes = [])
      (hverdict : s.verdict ≠ some true)
  | loggedIn (hclient : s.client = .loggedIn) (hserver : s.toServer = [])
      (hhandler : s.handler = none) (hunsent : s.unsent = [])
      (hbytes : s.toClient = pushes.flatMap serverSendLine)
      (hverdict : s.verdict = some true) (hreturned : s.returned = some true)

/-- What every undisturbed action keeps. -/
structure LoginOk (sock : Socket) (s : Login) : Prop where
  healthy : Healthy s.server.world
  isOpen : (s.server.sessions sock).isSome
  consumed : ∀ line ∈ s.consumed, isTriggered line = false
  hand : ∀ msg, s.hand = some msg → ∃ line, msg = line ++ [10] ∧ IsPush line
  phase : ∃ pushes, LoginPhase s pushes ∧ (∀ line ∈ pushes, IsPush line) ∧
    s.pushed = (s.posted ++ pushes).map serverSendLine

/-! ## Steps of the session thread -/

section

variable {sock : Socket} {s s' : Login} {reply : Option Bytes} {pushes : List Bytes}

theorem session_frame (h : LoginStep sock s .session s') :
    s'.client = s.client ∧ s'.returned = s.returned ∧ s'.hand = s.hand ∧
      s'.posted = s.posted ∧ s'.pushed = s.pushed ∧ s'.consumed = s.consumed := by
  cases h <;> exact ⟨rfl, rfl, rfl, rfl, rfl, rfl⟩

theorem not_session_of_done (hserver : s.toServer = []) (hhandler : s.handler = none)
    (hunsent : s.unsent = []) : ¬ LoginStep sock s .session s' := by
  intro h
  cases h with
  | answer hunsent' => cases hunsent.symm.trans hunsent'
  | call _ hhandler' | done _ hhandler' => cases hhandler.symm.trans hhandler'
  | skip _ _ hrecv | dispatch _ _ hrecv =>
      rw [hserver] at hrecv
      cases hrecv

theorem Answering.session (h : Answering s reply) (hstep : LoginStep sock s .session s') :
    reply = none ∧ ∃ reply', Answering s' reply' ∧
      s'.toClient = s.toClient ++ reply'.toList.flatMap serverSendLine := by
  cases h with
  | @coming user password hlength hserver hhandler hunsent hverdict =>
      have hrecv := serverRecvLine_text hlength
      rw [← hserver] at hrecv
      cases hstep with
      | answer hunsent' => cases hunsent.symm.trans hunsent'
      | call _ hhandler' | done _ hhandler' => cases hhandler.symm.trans hhandler'
      | skip _ _ hrecv' =>
          have hnil := (Prod.mk.inj (Option.some.inj (hrecv.symm.trans hrecv'))).1
          exact absurd hnil (ClientCommand.text_ne_nil _)
      | @dispatch line rest self _ _ hrecv' =>
          obtain ⟨rfl, rfl⟩ := Prod.mk.inj (Option.some.inj (hrecv.symm.trans hrecv'))
          refine ⟨rfl, none, .handling rfl rfl hunsent ?_, (List.append_nil _).symm⟩
          rw [hverdict]
          exact dispatch_decides self user password
  | handling hserver hhandler hunsent hdecides =>
      cases hstep with
      | answer hunsent' => cases hunsent.symm.trans hunsent'
      | call _ hhandler' =>
          obtain rfl := Option.some.inj (hhandler.symm.trans hhandler')
          exact ⟨rfl, none, .handling hserver rfl hunsent (hdecides.2 _),
            (List.append_nil _).symm⟩
      | done _ hhandler' =>
          obtain rfl := Option.some.inj (hhandler.symm.trans hhandler')
          obtain ⟨line, hreply, hline⟩ := hdecides
          exact ⟨rfl, none, .replying hserver rfl (congrArg Reply.lines hreply) hline,
            (List.append_nil _).symm⟩
      | skip _ hhandler' | dispatch _ hhandler' => cases hhandler.symm.trans hhandler'
  | replying hserver hhandler hunsent hline =>
      cases hstep with
      | answer hunsent' =>
          obtain ⟨rfl, rfl⟩ := List.cons.inj (hunsent.symm.trans hunsent')
          refine ⟨rfl, some _, .replied hserver hhandler rfl hline, ?_⟩
          rw [Option.toList_some, List.flatMap_singleton]
      | call hunsent' | done hunsent' | skip hunsent' | dispatch hunsent' =>
          cases hunsent.symm.trans hunsent'
  | replied hserver hhandler hunsent =>
      exact absurd hstep (not_session_of_done hserver hhandler hunsent)

theorem Answering.server (h : Answering s reply) (hhealthy : Healthy s.server.world)
    (hopen : (s.server.sessions sock).isSome) (hstep : LoginStep sock s .session s') :
    Healthy s'.server.world ∧ (s'.server.sessions sock).isSome := by
  cases hstep with
  | answer | skip | dispatch => exact ⟨hhealthy, hopen⟩
  | done => exact ⟨hhealthy, by simp⟩
  | call _ hhandler =>
      cases h with
      | handling _ hhandler' _ hdecides =>
          obtain rfl := Option.some.inj (hhandler.symm.trans hhandler')
          exact ⟨hhealthy.login hdecides.1, hopen⟩
      | coming _ _ hhandler' | replying _ hhandler' | replied _ hhandler' =>
          cases hhandler.symm.trans hhandler'

/-- Only a call that accepts the LOGIN makes the verdict positive. -/
theorem verdict_of_session (hstep : LoginStep sock s .session s') (hnot : ¬ s.accepts)
    (hverdict : s.verdict ≠ some true) : s'.verdict ≠ some true := by
  cases hstep with
  | answer | done | skip | dispatch => exact hverdict
  | @call c k _ hhandler =>
      cases c with
      | verifyLogin username password =>
          unfold Login.accepts at hnot
          rw [hhandler] at hnot
          intro haccepted
          exact hnot (Option.some.inj haccepted)
      | _ => exact hverdict

theorem LoginOk.session (h : LoginOk sock s) (hstep : LoginStep sock s .session s')
    (hok : Undisturbed s .session) : LoginOk sock s' := by
  obtain ⟨hhealthy, hopen, hconsumed, hhand, pushes, hphase, hlines, hpushed⟩ := h
  obtain ⟨hclient, hreturned, hhand', hposted, hpushed', hconsumed'⟩ :=
    session_frame hstep
  rw [← hconsumed'] at hconsumed
  rw [← hhand'] at hhand
  rw [← hposted, ← hpushed'] at hpushed
  cases hphase with
  | quiet _ hserver hhandler hunsent | loggedIn _ hserver hhandler hunsent =>
      exact absurd hstep (not_session_of_done hserver hhandler hunsent)
  | waiting hwaits hnone hanswering hbytes hearly =>
      obtain ⟨hhealthy', hopen'⟩ := hanswering.server hhealthy hopen hstep
      obtain ⟨rfl, reply', hanswering', hbytes'⟩ := hanswering.session hstep
      have hnil : pushes = [] := not_imp_comm.mp hearly fun h => h.2 rfl
      subst hnil
      refine ⟨hhealthy', hopen', hconsumed, hhand, [], ?_, hlines, hpushed⟩
      refine .waiting (hclient ▸ hwaits) (hreturned.trans hnone) hanswering' ?_
        (fun hne => absurd rfl hne)
      rw [hbytes', hbytes, List.append_nil, List.append_nil]
      rfl
  | gaveUp hidle hfalse hanswering hbytes hnil hverdict =>
      obtain ⟨hhealthy', hopen'⟩ := hanswering.server hhealthy hopen hstep
      obtain ⟨rfl, reply', hanswering', hbytes'⟩ := hanswering.session hstep
      have hnot : ¬ s.accepts := by
        intro haccepts
        rw [hok haccepts] at hfalse
        cases hfalse
      refine ⟨hhealthy', hopen', hconsumed, hhand, pushes, ?_, hlines, hpushed⟩
      refine .gaveUp (hclient.trans hidle) (hreturned.trans hfalse) hanswering' ?_ hnil
        (verdict_of_session hstep hnot hverdict)
      rw [hbytes', hbytes]
      rfl

/-! ## Steps of the others -/

theorem Answering.congr (h : Answering s reply) (hserver : s'.toServer = s.toServer)
    (hhandler : s'.handler = s.handler) (hunsent : s'.unsent = s.unsent)
    (hverdict : s'.verdict = s.verdict) : Answering s' reply := by
  rcases s' with ⟨_, _, _, _, _, _, _, _, _, _, _, _, _⟩
  dsimp only at hserver hhandler hunsent hverdict
  subst hserver hhandler hunsent hverdict
  cases h with
  | coming h₁ h₂ h₃ h₄ h₅ => exact .coming h₁ h₂ h₃ h₄ h₅
  | handling h₁ h₂ h₃ h₄ => exact .handling h₁ h₂ h₃ h₄
  | replying h₁ h₂ h₃ h₄ => exact .replying h₁ h₂ h₃ h₄
  | replied h₁ h₂ h₃ h₄ => exact .replied h₁ h₂ h₃ h₄

theorem LoginPhase.serve (h : LoginPhase s pushes) (server : Server)
    (hand : Option Bytes) :
    LoginPhase { s with server := server, hand := hand } pushes := by
  cases h with
  | quiet h₁ h₂ h₃ h₄ h₅ h₆ h₇ h₈ => exact .quiet h₁ h₂ h₃ h₄ h₅ h₆ h₇ h₈
  | waiting h₁ h₂ h₃ h₄ h₅ => exact .waiting h₁ h₂ (h₃.congr rfl rfl rfl rfl) h₄ h₅
  | gaveUp h₁ h₂ h₃ h₄ h₅ h₆ => exact .gaveUp h₁ h₂ (h₃.congr rfl rfl rfl rfl) h₄ h₅ h₆
  | loggedIn h₁ h₂ h₃ h₄ h₅ h₆ h₇ => exact .loggedIn h₁ h₂ h₃ h₄ h₅ h₆ h₇

theorem LoginPhase.login {user password : Field} {now : UInt32} (h : LoginPhase s pushes)
    (hclient : s.client = .idle)
    (hok : Undisturbed s (.login user password now)) :
    LoginPhase { s with
      responseQ := [],
      toServer := s.toServer ++ clientSendLine (ClientCommand.login user password).text,
      client := .checking (now + 6000) [], returned := none, verdict :=
        none } pushes := by
  obtain ⟨⟨hserver, hhandler, hunsent, hbytes⟩, hlength⟩ := hok
  have hnil : pushes = [] := by
    cases h with
    | quiet _ _ _ _ _ hnil | gaveUp _ _ _ _ hnil => exact hnil
    | waiting hwaits =>
        rw [hclient] at hwaits
        exact hwaits.elim
    | loggedIn hlogged => cases hclient.symm.trans hlogged
  subst hnil
  refine .waiting rfl rfl
    (.coming hlength ?_ (Option.isNone_iff_eq_none.mp hhandler) hunsent rfl)
    hbytes (fun hne => absurd rfl hne)
  rw [hserver, List.nil_append]

theorem LoginPhase.giveUp {deadline now : UInt32} {lines : List Bytes}
    (h : LoginPhase s pushes) (hclient : s.client = .checking deadline lines)
    (hnow : deadline ≤ now) (hok : Undisturbed s (.check now)) :
    LoginPhase { s with client := .idle, returned := some false } pushes := by
  have hverdict : s.verdict ≠ some true := by
    refine hok ?_
    unfold Login.givesUp
    rw [hclient]
    exact decide_eq_true hnow
  cases h with
  | waiting _ _ hanswering hbytes hearly =>
      have hnil : pushes = [] := not_imp_comm.mp hearly fun h => hverdict h.1
      subst hnil
      refine .gaveUp rfl rfl (hanswering.congr rfl rfl rfl rfl) ?_ rfl hverdict
      rw [hbytes, List.append_nil]
  | quiet hclient' | gaveUp hclient' | loggedIn hclient' =>
      cases hclient.symm.trans hclient'

theorem LoginPhase.goOn {deadline : UInt32} {lines : List Bytes}
    (h : LoginPhase s pushes) (hclient : s.client = .checking deadline lines) :
    LoginPhase { s with client := .receiving deadline lines } pushes := by
  cases h with
  | waiting hwaits hnone hanswering hbytes hearly =>
      rw [hclient] at hwaits
      exact .waiting hwaits hnone (hanswering.congr rfl rfl rfl rfl) hbytes hearly
  | quiet hclient' | gaveUp hclient' | loggedIn hclient' =>
      cases hclient.symm.trans hclient'

/-- The first line that `SendCommand` receives is the reply. -/
theorem LoginPhase.received {deadline : UInt32} {lines : List Bytes} {line rest : Bytes}
    (h : LoginPhase s pushes) (hclient : s.client = .receiving deadline lines)
    (hrecv : clientRecvLine [] s.toClient = some (line, rest)) :
    lines = [] ∧ VerdictLine s.verdict line ∧ rest = pushes.flatMap serverSendLine ∧
      s.toServer = [] ∧ s.handler = none ∧ s.unsent = [] ∧
      (pushes ≠ [] → s.verdict = some true) := by
  cases h with
  | waiting hwaits _ hanswering hbytes hearly =>
      rw [hclient] at hwaits
      rw [hbytes] at hrecv
      cases hanswering with
      | replied hserver hhandler hunsent hline =>
          rw [Option.toList_some, List.singleton_append,
            clientRecvLine_wire hline.1.2] at hrecv
          obtain ⟨rfl, rfl⟩ := Prod.mk.inj (Option.some.inj hrecv)
          exact ⟨hwaits, hline, rfl, hserver, hhandler, hunsent,
            fun hne => (hearly hne).1⟩
      | coming | handling | replying =>
          have hnil : pushes = [] := not_imp_comm.mp hearly fun h => h.2 rfl
          subst hnil
          cases hrecv
  | quiet hclient' | gaveUp hclient' | loggedIn hclient' =>
      cases hclient.symm.trans hclient'

theorem LoginPhase.finish {deadline : UInt32} {lines : List Bytes} {line rest : Bytes}
    {consumed : List Bytes} (h : LoginPhase s pushes)
    (hclient : s.client = .receiving deadline lines)
    (hrecv : clientRecvLine [] s.toClient = some (line, rest)) :
    LoginPhase { s with
      toClient := rest, consumed := consumed,
      client := if isOk (lines ++ [line]) then .loggedIn else .idle,
      returned := some (isOk (lines ++ [line])) } pushes := by
  obtain ⟨rfl, ⟨-, hline⟩, rfl, hserver, hhandler, hunsent, hearly⟩ :=
    h.received hclient hrecv
  rw [List.nil_append]
  cases hok : isOk [line] with
  | true =>
      exact .loggedIn rfl hserver hhandler hunsent rfl (hline.mp hok) rfl
  | false =>
      have hverdict : s.verdict ≠ some true := fun hyes => by
        rw [hline.mpr hyes] at hok
        cases hok
      have hnil : pushes = [] := not_imp_comm.mp hearly hverdict
      subst hnil
      exact .quiet rfl hserver hhandler hunsent rfl rfl hverdict (by simp)

theorem LoginPhase.push {line : Bytes} (h : LoginPhase s pushes)
    (hok : Undisturbed s .push) {hand : Option Bytes} {pushed : List Bytes} :
    LoginPhase { s with
      hand := hand, toClient := s.toClient ++ serverSendLine line, pushed := pushed }
      (pushes ++ [line]) := by
  obtain ⟨haccepted, hnone, hunsent⟩ := hok
  have hhandler := Option.isNone_iff_eq_none.mp hnone
  cases h with
  | quiet _ _ _ _ _ _ hverdict | gaveUp _ _ _ _ _ hverdict =>
      exact absurd haccepted hverdict
  | @waiting reply hwaits hreturned hanswering hbytes =>
      have hsent : reply ≠ none := by
        rintro rfl
        cases hanswering with
        | coming _ _ _ _ hverdict => cases haccepted.symm.trans hverdict
        | handling _ hhandler' => cases hhandler.symm.trans hhandler'
        | replying _ _ hunsent' => cases hunsent.symm.trans hunsent'
      refine .waiting hwaits hreturned (hanswering.congr rfl rfl rfl rfl) ?_
        (fun _ => ⟨haccepted, hsent⟩)
      rw [← List.append_assoc, List.flatMap_append, ← hbytes, List.flatMap_singleton]
  | loggedIn hclient hserver hhandler hunsent hbytes hverdict hreturned =>
      refine .loggedIn hclient hserver hhandler hunsent ?_ hverdict hreturned
      rw [List.flatMap_append, ← hbytes, List.flatMap_singleton]

theorem LoginPhase.posted {line rest : Bytes} (h : LoginPhase s pushes)
    (hlines : ∀ line ∈ pushes, IsPush line) (hclient : s.client = .loggedIn)
    (hrecv : clientRecvLine [] s.toClient = some (line, rest)) :
    ∃ pushes', pushes = line :: pushes' ∧ ∀ posted : List Bytes,
      LoginPhase { s with toClient := rest, posted := posted } pushes' := by
  cases h with
  | loggedIn _ hserver hhandler hunsent hbytes hverdict hreturned =>
      rw [hbytes] at hrecv
      obtain ⟨pushes', rfl, rfl⟩ :=
        wire_of_recv (fun line hline => (hlines line hline).2) hrecv
      exact ⟨pushes', rfl, fun _ =>
        .loggedIn hclient hserver hhandler hunsent rfl hverdict hreturned⟩
  | waiting hwaits =>
      rw [hclient] at hwaits
      exact hwaits.elim
  | quiet hidle | gaveUp hidle => cases hclient.symm.trans hidle

theorem LoginOk.step {a : LoginAction} (h : LoginOk sock s)
    (hstep : LoginStep sock s a s') (hok : Undisturbed s a) : LoginOk sock s' := by
  have hsession := hstep
  obtain ⟨pushes, hphase, hlines, hpushed⟩ := h.phase
  cases hstep with
  | login hclient =>
      exact ⟨h.healthy, h.isOpen, h.consumed, h.hand, pushes,
        hphase.login hclient hok, hlines, hpushed⟩
  | answer | call | done | skip | dispatch => exact h.session hsession hok
  | giveUp hclient hnow =>
      exact ⟨h.healthy, h.isOpen, h.consumed, h.hand, pushes,
        hphase.giveUp hclient hnow hok, hlines, hpushed⟩
  | goOn hclient =>
      exact ⟨h.healthy, h.isOpen, h.consumed, h.hand, pushes, hphase.goOn hclient, hlines,
        hpushed⟩
  | finish hclient hrecv =>
      obtain ⟨-, ⟨hstatus, -⟩, -⟩ := hphase.received hclient hrecv
      refine ⟨h.healthy, h.isOpen, ?_, h.hand, pushes,
        hphase.finish hclient hrecv, hlines, hpushed⟩
      exact List.forall_mem_append.mpr
        ⟨h.consumed, List.forall_mem_singleton.mpr hstatus.replyLine.2⟩
  | read hclient hrecv hstops =>
      obtain ⟨-, ⟨hstatus, -⟩, -⟩ := hphase.received hclient hrecv
      rw [hstatus.stops] at hstops
      cases hstops
  | take _ htask =>
      refine ⟨h.healthy, h.isOpen, h.consumed, ?_, pushes, hphase.serve _ _,
        hlines, hpushed⟩
      rintro _ ⟨⟩
      exact h.healthy.tasks _ (List.mem_of_getElem? htask)
  | push hhand =>
      obtain ⟨line, rfl, hline⟩ := h.hand _ hhand
      refine ⟨h.healthy, h.isOpen, h.consumed, nofun, pushes ++ [line], hphase.push hok,
        List.forall_mem_append.mpr ⟨hlines, List.forall_mem_singleton.mpr hline⟩, ?_⟩
      change s.pushed ++ [serverSendLine line] =
        (s.posted ++ (pushes ++ [line])).map serverSendLine
      rw [← List.append_assoc, List.map_append, ← hpushed, List.map_singleton]
  | post hclient hrecv =>
      obtain ⟨pushes', rfl, hphase'⟩ := hphase.posted hlines hclient hrecv
      refine ⟨h.healthy, h.isOpen, h.consumed, h.hand, pushes', hphase' _,
        (List.forall_mem_cons.mp hlines).2, ?_⟩
      rw [hpushed, List.append_cons]
  | queue hclient hrecv htriggered =>
      obtain ⟨pushes', rfl, -⟩ := hphase.posted hlines hclient hrecv
      have hpush := startsWith_iff.mpr (hlines _ List.mem_cons_self).1
      exact absurd (hpush.symm.trans htriggered) (by decide)
  | other hspares hserve =>
      refine ⟨h.healthy.serve hserve, ?_, h.consumed, h.hand, pushes,
        hphase.serve _ _, hlines, hpushed⟩
      rw [sessions_of_spares hspares hserve]
      exact h.isOpen

/-! ## LoginUser returns -/

/-- Steps of the session and of the main thread lead to the end of `LoginUser`, with the
verdict. -/
def Returns (sock : Socket) : Login → Prop :=
  (loginExchange sock).CanReach (fun a => a = .session ∨ a = .receive) fun s =>
    ∃ ok, s.returned = some ok ∧ (ok = true ↔ s.verdict = some true)

theorem returns_replied {deadline : UInt32} {line rest : Bytes}
    (hclient : s.client = .receiving deadline [])
    (hrecv : clientRecvLine [] s.toClient = some (line, rest))
    (hline : VerdictLine s.verdict line) : Returns sock s := by
  have hnext : (loginExchange sock).next s .receive = some { s with
      toClient := rest, consumed := s.consumed ++ [line],
      client := if isOk [line] then .loggedIn else .idle,
      returned := some (isOk [line]) } := by
    simp [loginExchange, Login.stepReceive, hclient, hrecv, hline.1.stops]
  exact .step (a := .receive) (.inr rfl) hnext (.here ⟨_, rfl, hline.2⟩)

theorem returns_replying {deadline : UInt32} {line : Bytes}
    (hclient : s.client = .receiving deadline []) (hbytes : s.toClient = [])
    (hunsent : s.unsent = [line]) (hline : VerdictLine s.verdict line) :
    Returns sock s := by
  have hnext : (loginExchange sock).next s .session = some { s with
      unsent := [], toClient := s.toClient ++ serverSendLine line } := by
    simp [loginExchange, Login.stepSession, hunsent]
  have hrecv : clientRecvLine [] (s.toClient ++ serverSendLine line) =
      some (line, []) := by
    rw [hbytes, List.nil_append, ← List.flatMap_singleton serverSendLine line]
    exact clientRecvLine_wire hline.1.2 []
  exact .step (a := .session) (.inl rfl) hnext (returns_replied hclient hrecv hline)

theorem returns_handling {deadline : UInt32} {p : Handler}
    (hclient : s.client = .receiving deadline []) (hbytes : s.toClient = [])
    (hhandler : s.handler = some p) (hunsent : s.unsent = [])
    (hdecides : Decides p s.verdict) : Returns sock s := by
  induction p generalizing s with
  | ret out =>
      obtain ⟨line, hreply, hline⟩ := hdecides
      obtain ⟨self, reply⟩ := out
      obtain rfl : reply = ⟨[line], false⟩ := hreply
      have hnext : (loginExchange sock).next s .session = some { s with
          server := { s.server with
            sessions := Function.update s.server.sessions sock (some self) },
          handler := none, unsent := [line] } := by
        simp [loginExchange, Login.stepSession, hunsent, hhandler]
      exact .step (a := .session) (.inl rfl) hnext
        (returns_replying hclient hbytes rfl hline)
  | call c k ih =>
      have hnext : (loginExchange sock).next s .session = some { s with
          server := { s.server with world := (exec c s.server.world).2 },
          handler := some (k (exec c s.server.world).1),
          verdict := verdictAfter s.verdict c (exec c s.server.world).1 } := by
        simp [loginExchange, Login.stepSession, hunsent, hhandler]
      exact .step (a := .session) (.inl rfl) hnext
        (ih _ hclient hbytes rfl hunsent (hdecides.2 _))

theorem returns_coming {deadline : UInt32} {user password : Field}
    (hclient : s.client = .receiving deadline []) (hbytes : s.toClient = [])
    (hopen : (s.server.sessions sock).isSome)
    (hlength : (ClientCommand.login user password).text.length ≤ recvBufSize)
    (hserver : s.toServer = clientSendLine (ClientCommand.login user password).text)
    (hhandler : s.handler = none) (hunsent : s.unsent = [])
    (hverdict : s.verdict = none) : Returns sock s := by
  obtain ⟨self, hself⟩ := Option.isSome_iff_exists.mp hopen
  have hrecv := serverRecvLine_text hlength
  rw [← hserver] at hrecv
  have hnext : (loginExchange sock).next s .session = some { s with
      toServer := [],
      handler := some (dispatch self (ClientCommand.login user password).text) } := by
    simp [loginExchange, Login.stepSession, hunsent, hhandler, hrecv, hself,
      ClientCommand.text_ne_nil]
  refine .step (a := .session) (.inl rfl) hnext
    (returns_handling hclient hbytes rfl hunsent ?_)
  rw [hverdict]
  exact dispatch_decides self user password

/-- A main thread that waits for a line gets its reply. -/
theorem LoginOk.returns {deadline : UInt32} {lines : List Bytes} (h : LoginOk sock s)
    (hclient : s.client = .receiving deadline lines) : Returns sock s := by
  obtain ⟨pushes, hphase, -⟩ := h.phase
  cases hphase with
  | @waiting reply hwaits _ hanswering hbytes hearly =>
      rw [hclient] at hwaits
      obtain rfl : lines = [] := hwaits
      have hempty : reply = none → s.toClient = [] := by
        rintro rfl
        have hnil : pushes = [] := not_imp_comm.mp hearly fun h => h.2 rfl
        rw [hbytes, hnil]
        rfl
      cases hanswering with
      | @replied line _ _ _ hline =>
          have hrecv : clientRecvLine [] s.toClient =
              some (line, pushes.flatMap serverSendLine) := by
            rw [hbytes]
            exact clientRecvLine_wire hline.1.2 pushes
          exact returns_replied hclient hrecv hline
      | replying _ _ hunsent hline =>
          exact returns_replying hclient (hempty rfl) hunsent hline
      | handling _ hhandler hunsent hdecides =>
          exact returns_handling hclient (hempty rfl) hhandler hunsent hdecides
      | coming hlength hserver hhandler hunsent hverdict =>
          exact returns_coming hclient (hempty rfl) h.isOpen hlength hserver
            hhandler hunsent
            hverdict
  | quiet hidle | gaveUp hidle | loggedIn hidle => cases hclient.symm.trans hidle

/-! ## The result -/

theorem loginOk_of_run {server : Server} {t : List LoginAction}
    (hhealthy : Healthy server.world) (hopen : (server.sessions sock).isSome)
    (h : (loginExchange sock).Run (fun _ => Undisturbed) (.start server) t s) :
    LoginOk sock s := by
  induction h with
  | nil =>
      refine ⟨hhealthy, hopen, List.forall_mem_nil _, nofun, [], ?_,
        List.forall_mem_nil _, rfl⟩
      exact .quiet rfl rfl rfl rfl rfl rfl nofun nofun
  | snoc _ hnext hok ih => exact ih.step (step_of_loginExchange hnext) hok

/-- What `LoginUser` returned says what the verdict is. -/
theorem LoginPhase.returned_iff (h : LoginPhase s pushes) {ok : Bool}
    (hok : s.returned = some ok) : ok = true ↔ s.verdict = some true := by
  cases h with
  | quiet _ _ _ _ _ _ hverdict hreturned =>
      refine iff_of_false (fun hyes => ?_) hverdict
      rw [hok, hyes] at hreturned
      exact hreturned rfl
  | waiting _ hreturned => cases hok.symm.trans hreturned
  | gaveUp _ hreturned _ _ _ hverdict =>
      obtain rfl := Option.some.inj (hok.symm.trans hreturned)
      exact iff_of_false Bool.false_ne_true hverdict
  | loggedIn _ _ _ _ _ hverdict hreturned =>
      obtain rfl := Option.some.inj (hok.symm.trans hreturned)
      exact iff_of_true rfl hverdict

/-- The TRIGGERED lines not posted are on the connection. -/
theorem LoginPhase.pushes_eq_nil (h : LoginPhase s pushes) (hempty : s.toClient = []) :
    pushes = [] := by
  cases h with
  | quiet _ _ _ _ _ hpushes | gaveUp _ _ _ _ hpushes => exact hpushes
  | waiting _ _ _ hbytes =>
      exact (List.append_eq_nil_iff.mp (wire_eq_nil (hbytes.symm.trans hempty))).2
  | loggedIn _ _ _ _ hbytes => exact wire_eq_nil (hbytes.symm.trans hempty)

/-- On a connection of a server that has run from a new database, in every run of LOGINs
of the window that is not disturbed:
`LoginUser` has returned true exactly if the server has accepted its LOGIN;
no line that `SendCommand` read was a TRIGGERED line;
every TRIGGERED line sent on the connection is posted, in order, or still on the
connection; and a `LoginUser` that waits for a line can always return. -/
theorem loginUser_returns_verdict {clock : ℕ → LocalTime} {marketData : Bool}
    {history : List Event} {server : Server} {t : List LoginAction}
    (hstart : serveAll exec (.off .created clock) (.startUp marketData :: history) =
      some server)
    (hopen : (server.sessions sock).isSome)
    (h : (loginExchange sock).Run (fun _ => Undisturbed) (.start server) t s) :
    (∀ ok, s.returned = some ok → (ok = true ↔ s.verdict = some true)) ∧
    (∀ line ∈ s.consumed, isTriggered line = false) ∧
    (s.posted.map serverSendLine <+: s.pushed ∧
      (s.toClient = [] → s.posted.map serverSendLine = s.pushed)) ∧
    (∀ deadline lines, s.client = .receiving deadline lines → Returns sock s) := by
  have hok := loginOk_of_run (healthy_of_history hstart) hopen h
  obtain ⟨pushes, hphase, -, hpushed⟩ := hok.phase
  refine ⟨fun ok => hphase.returned_iff, hok.consumed, ⟨?_, fun hempty => ?_⟩,
    fun deadline lines => hok.returns⟩
  · rw [hpushed, List.map_append]
    exact List.prefix_append _ _
  · rw [hpushed, hphase.pushes_eq_nil hempty, List.append_nil]

end

/-- Ann has an alert, and a second connection. -/
def secondConnection : List Event :=
  [.connect 8, .line 8 (ascii "REGISTER ann pw a@b"), .line 8 (ascii "LOGIN ann pw"),
    .line 8 (ascii "ADD_PRICE ann rb2609 3500 0"), .connect 7]

/-- She logs in on it, and the alert fires when `HandleLogin` has registered the
socket. -/
def loginWithAlert : List LoginAction :=
  [.login annName annPassword 0, .check 0,
    .session, .session, .session, .other (.tick (cstr (ascii "rb2609")) 3600), .take 0]

set_option maxRecDepth 10000 in
/-- The worker sends the message after the OK. -/
theorem late_message_is_posted : ∃ server t s,
    (loginExchange 7).Run (fun _ => Undisturbed) (.start server) t s ∧
      s.returned = some true ∧ s.verdict = some true ∧ s.pushed.length = 1 ∧
      s.posted.map serverSendLine = s.pushed := by
  have hserver : (serveAll exec (.off .created fun _ => ⟨2025, 6, 0, 8, 55, 0⟩)
      (.startUp true :: secondConnection)).map (fun server =>
      (server.sessions 7).isSome) =
        some true := by decide +kernel
  have hstate : (serveAll exec (.off .created fun _ => ⟨2025, 6, 0, 8, 55, 0⟩)
      (.startUp true :: secondConnection)).map (fun server =>
        ((loginExchange 7).followIf (fun _ s a => Undisturbed s a) [] (.start server)
          (loginWithAlert ++ [.session, .session, .push, .receive, .receiver])).map
          fun s =>
            (s.returned, s.toClient, s.pushed.length)) =
              some (some (some true, [], 1)) := by
    decide +kernel
  obtain ⟨server, hstart, hopen⟩ := Option.map_eq_some_iff.mp hserver
  rw [hstart] at hstate
  obtain ⟨s, hfollow, hparts⟩ := Option.map_eq_some_iff.mp (Option.some.inj hstate)
  simp only [Prod.mk.injEq] at hparts
  obtain ⟨hreturned, hempty, hlength⟩ := hparts
  have hrun : (loginExchange 7).Run (fun _ => Undisturbed) (.start server) _ s :=
    (Machine.Run.followIf_append .nil hfollow).mono fun _ _ _ => of_decide_eq_true
  obtain ⟨hverdict, -, ⟨-, hposted⟩, -⟩ := loginUser_returns_verdict hstart hopen hrun
  exact ⟨server, _, s, hrun, hreturned, (hverdict true hreturned).mp rfl, hlength,
    hposted hempty⟩

/-! ## Early messages -/

/-- The first of the lines, or of those to come, is a TRIGGERED line. -/
def StartsTriggered : List Bytes → Bytes → Prop
  | line :: _, _ => isTriggered line = true
  | [], stream => ∃ line rest, clientRecvLine [] stream = some (line, rest) ∧
      isTriggered line = true

/-- `SendCommand` reads a TRIGGERED line first, or it is over without success. -/
inductive Login.Spoiled (s : Login) : Prop where
  | checking {deadline lines} (hclient : s.client = .checking deadline lines)
      (hfirst : StartsTriggered lines s.toClient)
  | receiving {deadline lines} (hclient : s.client = .receiving deadline lines)
      (hfirst : StartsTriggered lines s.toClient)
  | failed (hclient : s.client = .idle) (hreturned : s.returned ≠ some true)

section

variable {sock : Socket} {s s' : Login} {lines : List Bytes} {stream : Bytes}

theorem StartsTriggered.append (h : StartsTriggered lines stream) (more : Bytes) :
    StartsTriggered lines (stream ++ more) := by
  cases lines with
  | nil =>
      obtain ⟨line, rest, hrecv, htriggered⟩ := h
      exact ⟨line, rest ++ more, clientRecvLine_append more hrecv, htriggered⟩
  | cons line lines => exact h

theorem StartsTriggered.received {line rest : Bytes} (h : StartsTriggered lines stream)
    (hrecv : clientRecvLine [] stream = some (line, rest)) :
    ∃ first more, lines ++ [line] = first :: more ∧ isTriggered first = true := by
  cases lines with
  | nil =>
      obtain ⟨line', rest', hrecv', htriggered⟩ := h
      obtain ⟨rfl, rfl⟩ := Prod.mk.inj (Option.some.inj (hrecv.symm.trans hrecv'))
      exact ⟨line, [], rfl, htriggered⟩
  | cons first lines => exact ⟨first, lines ++ [line], rfl, h⟩

theorem isOk_of_triggered {first : Bytes} {more : List Bytes}
    (h : isTriggered first = true) : isOk (first :: more) = false :=
  startsWith_other (startsWith_iff.mp h) (by decide) (by decide)

/-- It does not matter what the server sends. -/
theorem Login.Spoiled.sent (h : s.Spoiled) (hclient : s'.client = s.client)
    (hreturned : s'.returned = s.returned) {more : Bytes}
    (hbytes : s'.toClient = s.toClient ++ more) : s'.Spoiled := by
  cases h with
  | checking hchecking hfirst =>
      exact .checking (hclient.trans hchecking) (hbytes ▸ hfirst.append more)
  | receiving hreceiving hfirst =>
      exact .receiving (hclient.trans hreceiving) (hbytes ▸ hfirst.append more)
  | failed hidle hnot => exact .failed (hclient.trans hidle) (hreturned ▸ hnot)

theorem Login.Spoiled.step {a : LoginAction} (h : s.Spoiled)
    (hstep : LoginStep sock s a s')
    (ha : ∀ user password now, a ≠ .login user password now) : s'.Spoiled := by
  cases hstep with
  | login => exact absurd rfl (ha _ _ _)
  | answer | push => exact h.sent rfl rfl rfl
  | call | done | skip | dispatch | take | other =>
      exact h.sent rfl rfl (List.append_nil _).symm
  | giveUp => exact .failed rfl (by simp)
  | goOn hclient =>
      cases h with
      | checking hclient' hfirst =>
          obtain ⟨rfl, rfl⟩ := LoginUser.checking.inj (hclient.symm.trans hclient')
          exact .receiving rfl hfirst
      | receiving hclient' | failed hclient' => cases hclient.symm.trans hclient'
  | finish hclient hrecv =>
      cases h with
      | receiving hclient' hfirst =>
          obtain ⟨rfl, rfl⟩ := LoginUser.receiving.inj (hclient.symm.trans hclient')
          obtain ⟨first, more, hlines, htriggered⟩ := hfirst.received hrecv
          rw [hlines, isOk_of_triggered htriggered]
          exact .failed rfl (by simp)
      | checking hclient' | failed hclient' => cases hclient.symm.trans hclient'
  | read hclient hrecv =>
      cases h with
      | receiving hclient' hfirst =>
          obtain ⟨rfl, rfl⟩ := LoginUser.receiving.inj (hclient.symm.trans hclient')
          obtain ⟨first, more, hlines, htriggered⟩ := hfirst.received hrecv
          rw [hlines]
          exact .checking rfl htriggered
      | checking hclient' | failed hclient' => cases hclient.symm.trans hclient'
  | post hclient | queue hclient =>
      cases h with
      | checking hclient' | receiving hclient' | failed hclient' =>
          cases hclient.symm.trans hclient'

/-- When a TRIGGERED line is on the connection before the reply, this `LoginUser` does not
return true, whatever happens. -/
theorem early_message_fails {t : List LoginAction} (h : s.Spoiled)
    (hrun : (loginExchange sock).Run
      (fun _ _ a => ∀ user password now, a ≠ .login user password now) s t s') :
    s'.client ≠ .loggedIn ∧ (s'.client = .idle → s'.returned ≠ some true) := by
  have hspoiled : s'.Spoiled := by
    induction hrun with
    | nil => exact h
    | snoc _ hnext ha ih => exact ih.step (step_of_loginExchange hnext) ha
  cases hspoiled with
  | checking hclient | receiving hclient =>
      rw [hclient]
      exact ⟨nofun, nofun⟩
  | failed hidle hreturned =>
      rw [hidle]
      exact ⟨nofun, fun _ => hreturned⟩

end

set_option maxRecDepth 10000 in
/-- The worker sends the message before the OK: the server has accepted the LOGIN,
`LoginUser` returns false, and the message is gone. -/
theorem accepted_login_returns_false : ∃ server t s,
    serveAll exec (.off .created fun _ => ⟨2025, 6, 0, 8, 55, 0⟩)
      (.startUp true :: secondConnection) = some server ∧
    (loginExchange 7).AnyRun (.start server) t s ∧
      s.verdict = some true ∧ s.returned = some false ∧
      (∃ line ∈ s.consumed, isTriggered line = true) ∧ s.posted = [] := by
  have hstate : (serveAll exec (.off .created fun _ => ⟨2025, 6, 0, 8, 55, 0⟩)
      (.startUp true :: secondConnection)).map (fun server =>
        ((loginExchange 7).follow (.start server) (loginWithAlert ++
          [.push, .session, .session, .receive, .check 0, .receive])).map fun s =>
            (s.verdict, s.returned, s.consumed.any isTriggered, s.posted.length)) =
        some (some (some true, some false, true, 0)) := by decide +kernel
  obtain ⟨server, hstart, hboth⟩ := Option.map_eq_some_iff.mp hstate
  obtain ⟨s, hfollow, hparts⟩ := Option.map_eq_some_iff.mp hboth
  simp only [Prod.mk.injEq] at hparts
  obtain ⟨hverdict, hreturned, hconsumed, hposted⟩ := hparts
  exact ⟨server, _, s, hstart, Machine.run_of_follow hfollow, hverdict, hreturned,
    List.any_eq_true.mp hconsumed, List.eq_nil_of_length_eq_zero hposted⟩

end CloudAlert
