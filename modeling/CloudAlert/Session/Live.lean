import CloudAlert.Session.Online

/-!
# Users with an open session

`LiveOnline` says that a user with an open session is online, on the socket of an open
session of that user. The online map has one entry per user, so the session it names can
end, or log in as somebody else, while another session of the user is still open:
`liveOnline_step` says that these two steps, and no others, break the property.
-/

namespace CloudAlert

open Program

/-- A session of user `u` is open on `sock`. -/
def OpenAs (s : Server) (u : ℤ) (sock : Socket) : Prop :=
  ∃ self, s.sessions sock = some self ∧ self.userId = u

/-- Every user with an open session is online, on the socket of such a session. -/
def LiveOnline (s : Server) : Prop :=
  ∀ u sock, u ≠ -1 → OpenAs s u sock →
    ∃ sock', s.world.userSockets u = some sock' ∧ OpenAs s u sock'

/-- The user of the session on `sock` is online on `sock`, and has another session. -/
def OneOfSeveral (s : Server) (sock : Socket) : Prop :=
  ∃ self sock', s.sessions sock = some self ∧
    s.world.userSockets self.userId = some sock ∧ sock' ≠ sock ∧
    OpenAs s self.userId sock'

/-- The session that stands for its user in the online map ends or switches to another
user, while a second session of the user is open. -/
def LeavesBehind (s : Server) : Event → Prop
  | .disconnect sock => OneOfSeveral s sock
  | .line sock line => OneOfSeveral s sock ∧ SwitchesUser s (.line sock line)
  | _ => False

theorem openAs_update {s s' : Server} {sock₀ : Socket} {new : Option Session}
    (hsessions : s'.sessions = Function.update s.sessions sock₀ new)
    {u : ℤ} {sock : Socket}
    (hne : sock ≠ sock₀) : OpenAs s' u sock ↔ OpenAs s u sock := by
  unfold OpenAs
  rw [hsessions, Function.update_of_ne hne]

theorem openAs_self {s s' : Server} {sock : Socket} {self : Session}
    (hsessions : s'.sessions = Function.update s.sessions sock (some self)) {u : ℤ} :
    OpenAs s' u sock ↔ self.userId = u := by
  unfold OpenAs
  rw [hsessions, Function.update_self]
  exact ⟨fun ⟨_, hself, hu⟩ => (Option.some.inj hself) ▸ hu, fun hu => ⟨self, rfl, hu⟩⟩

/-- The end of a session leaves somebody behind exactly if it stood for several. -/
theorem liveOnline_closed {s s' : Server} {sock₀ : Socket} {self₀ : Session}
    (h : Registered s) (hlive : LiveOnline s) (hself₀ : s.sessions sock₀ = some self₀)
    (hmap : ∀ u, s'.world.userSockets u =
      if self₀.userId ≠ -1 ∧ u = self₀.userId ∧ s.world.userSockets u = some self₀.sock
      then none else s.world.userSockets u)
    (hsessions : s'.sessions = Function.update s.sessions sock₀ none) :
    LiveOnline s' ↔ ¬ OneOfSeveral s sock₀ := by
  have hsock₀ := h.keyed sock₀ self₀ hself₀
  have hgone : ∀ u, ¬ OpenAs s' u sock₀ := by
    rintro u ⟨self, hself, -⟩
    rw [hsessions, Function.update_self] at hself
    cases hself
  constructor
  · rintro hlive' ⟨self, sock', hself, hentry, hne, hopen⟩
    obtain rfl : self₀ = self := Option.some.inj (hself₀.symm.trans hself)
    have huser : self₀.userId ≠ -1 := by
      intro hneg
      rw [hneg, h.noUser] at hentry
      cases hentry
    obtain ⟨sock'', hentry'', -⟩ := hlive' self₀.userId sock' huser
      ((openAs_update hsessions hne).mpr hopen)
    rw [hmap, if_pos ⟨huser, rfl, hsock₀ ▸ hentry⟩] at hentry''
    cases hentry''
  · intro hseveral u sock hu hopen'
    have hne : sock ≠ sock₀ := by
      rintro rfl
      exact hgone u hopen'
    have hopen := (openAs_update hsessions hne).mp hopen'
    obtain ⟨sock', hentry, hopen₁⟩ := hlive u sock hu hopen
    have hne' : sock' ≠ sock₀ := by
      rintro rfl
      obtain ⟨self, hself, rfl⟩ := hopen₁
      obtain rfl : self₀ = self := Option.some.inj (hself₀.symm.trans hself)
      exact hseveral ⟨self₀, sock, hself₀, hentry, hne, hopen⟩
    refine ⟨sock', ?_, (openAs_update hsessions hne').mpr hopen₁⟩
    rw [hmap, if_neg, hentry]
    rintro ⟨-, -, hown⟩
    rw [hentry, hsock₀] at hown
    exact hne' (Option.some.inj hown)

/-- An accepted LOGIN leaves somebody behind exactly if it switches the user of a session
that stood for several. -/
theorem liveOnline_login {s s' : Server} {sock₀ : Socket} {line word u p : Bytes}
    {rest : List Bytes} {self₀ : Session} (h : Registered s) (hlive : LiveOnline s)
    (hself₀ : s.sessions sock₀ = some self₀) (hword : commandWord line = ascii "LOGIN")
    (htokens : splitLine line = word :: u :: p :: rest)
    (huid : 0 ≤ s.world.db.verifyLogin .none u p)
    (hmap : s'.world.userSockets = Function.update s.world.userSockets
      (s.world.db.verifyLogin .none u p) (some self₀.sock))
    (hsessions : s'.sessions = Function.update s.sessions sock₀ (some
      { self₀ with userId := s.world.db.verifyLogin .none u p, username := u })) :
    LiveOnline s' ↔ ¬ LeavesBehind s (.line sock₀ line) := by
  have hsock₀ := h.keyed sock₀ self₀ hself₀
  have hself' : ∀ u', OpenAs s' u' sock₀ ↔ s.world.db.verifyLogin .none u p = u' :=
    fun u' => openAs_self hsessions
  constructor
  · rintro hlive' ⟨⟨self, sock', hself, hentry, hne, hopen⟩, hswitch⟩
    obtain rfl : self₀ = self := Option.some.inj (hself₀.symm.trans hself)
    obtain ⟨self, word', u', p', rest', hself, -, htokens', -, hother, -⟩ := hswitch
    obtain rfl : self₀ = self := Option.some.inj (hself₀.symm.trans hself)
    obtain ⟨rfl, rfl, rfl, rfl⟩ : word = word' ∧ u = u' ∧ p = p' ∧ rest = rest' := by
      simpa [htokens] using htokens'
    have huser : self₀.userId ≠ -1 := by
      intro hneg
      rw [hneg, h.noUser] at hentry
      cases hentry
    obtain ⟨sock'', hentry'', hopen''⟩ := hlive' self₀.userId sock' huser
      ((openAs_update hsessions hne).mpr hopen)
    rw [hmap, Function.update_of_ne hother.symm, hentry] at hentry''
    obtain rfl := Option.some.inj hentry''
    exact hother ((hself' _).mp hopen'')
  · intro hbehind u' sock hu' hopen'
    by_cases huser : u' = s.world.db.verifyLogin .none u p
    · refine ⟨sock₀, ?_, (hself' u').mpr huser.symm⟩
      rw [hmap, huser, Function.update_self, hsock₀]
    · have hne : sock ≠ sock₀ := by
        rintro rfl
        exact huser ((hself' u').mp hopen').symm
      have hopen := (openAs_update hsessions hne).mp hopen'
      obtain ⟨sock', hentry, hopen₁⟩ := hlive u' sock hu' hopen
      have hne' : sock' ≠ sock₀ := by
        rintro rfl
        obtain ⟨self, hself, rfl⟩ := hopen₁
        obtain rfl : self₀ = self := Option.some.inj (hself₀.symm.trans hself)
        exact hbehind ⟨⟨self₀, sock, hself₀, hentry, hne, hopen⟩, self₀, word, u, p, rest,
          hself₀, hword, htokens, huid, Ne.symm huser, hentry⟩
      refine ⟨sock', ?_, (openAs_update hsessions hne').mpr hopen₁⟩
      rw [hmap, Function.update_of_ne huser, hentry]

/-- One event keeps every user with an open session online exactly if it leaves nobody
behind. -/
theorem liveOnline_step {s s' : Server} {e : Event} (h : Registered s)
    (hlive : LiveOnline s) (hserve : serve exec s e = some s') :
    LiveOnline s' ↔ ¬ LeavesBehind s e := by
  cases serve_online hserve with
  | quiet hmap hsessions hswitch =>
      refine iff_of_true ?_ ?_
      · intro u sock hu hopen
        unfold OpenAs at hopen ⊢
        rw [hsessions] at hopen ⊢
        rw [hmap]
        exact hlive u sock hu hopen
      · intro hbehind
        cases e with
        | line sock line => exact hswitch hbehind.2
        | disconnect sock =>
            obtain ⟨self, -, hself, -⟩ := hbehind
            cases step_of_serve hserve with
            | disconnect _ self' hself' =>
                have hgone : Function.update s.sessions sock none sock =
                    s.sessions sock :=
                  congrFun hsessions sock
                rw [Function.update_self, hself] at hgone
                cases hgone
        | _ => exact hbehind
  | restarted hmap hsessions =>
      refine iff_of_true ?_ id
      rintro u sock - ⟨self, hself, -⟩
      rw [hsessions] at hself
      cases hself
  | @opened sock₀ _ hfree hmap hsessions =>
      refine iff_of_true ?_ id
      intro u sock hu hopen'
      have hne : sock ≠ sock₀ := by
        rintro rfl
        exact hu ((openAs_self hsessions).mp hopen').symm
      obtain ⟨sock', hentry, hopen₁⟩ :=
        hlive u sock hu ((openAs_update hsessions hne).mp hopen')
      have hne' : sock' ≠ sock₀ := by
        rintro rfl
        obtain ⟨self, hself, -⟩ := hopen₁
        rw [hfree] at hself
        cases hself
      exact ⟨sock', hmap ▸ hentry, (openAs_update hsessions hne').mpr hopen₁⟩
  | login hself₀ hword htokens huid hmap hsessions =>
      exact liveOnline_login h hlive hself₀ hword htokens huid hmap hsessions
  | closed hself₀ hmap hsessions => exact liveOnline_closed h hlive hself₀ hmap hsessions

/-- Every user with an open session is online at every point of a history exactly if no
session of the history that stands for several of its user ends or switches to another
user. -/
theorem liveOnline_iff (db : AlertDB) (clock : ℕ → LocalTime) (history : List Event) :
    (∀ es es' s, history = es ++ es' → serveAll exec (.off db clock) es = some s →
        LiveOnline s) ↔
      ∀ es e es' s, history = es ++ e :: es' →
        serveAll exec (.off db clock) es = some s →
        (serve exec s e).isSome → ¬ LeavesBehind s e := by
  refine always_iff (registered_off db clock)
    (fun _ _ _ h hserve => registered_step h hserve) ?_
    (fun _ _ _ h hlive hserve => liveOnline_step h hlive hserve) history
  rintro u sock - ⟨self, hself, -⟩
  cases hself

/-- A user logs in on two connections, and the second one is closed. -/
def twoClients : List Event :=
  [.startUp true, .connect 7, .connect 8, .line 7 (ascii "REGISTER ann pw a@b"),
    .line 7 (ascii "LOGIN ann pw"), .line 8 (ascii "LOGIN ann pw"), .disconnect 8]

set_option maxRecDepth 10000 in
/-- The first client is still logged in, but its user is offline. -/
theorem first_client_is_offline :
    ∃ s, serveAll exec (.off .created fun _ => ⟨2025, 6, 0, 8, 55, 0⟩) twoClients =
      some s ∧ ¬ LiveOnline s := by
  have hstate : (serveAll exec (.off .created fun _ => ⟨2025, 6, 0, 8, 55, 0⟩)
      twoClients).map (fun s => (s.world.userSockets 1, s.sessions 7)) =
        some (none, some ⟨7, 1, ascii "ann"⟩) := by decide +kernel
  obtain ⟨s, hs, hboth⟩ := Option.map_eq_some_iff.mp hstate
  obtain ⟨hentry, hsession⟩ := Prod.mk.inj hboth
  refine ⟨s, hs, fun hlive => ?_⟩
  obtain ⟨sock, hsome, -⟩ := hlive 1 7 (by decide) ⟨_, hsession, rfl⟩
  rw [hentry] at hsome
  cases hsome

end CloudAlert
