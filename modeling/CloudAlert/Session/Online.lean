import CloudAlert.Engine.Coherence
import CloudAlert.Server.History
import CloudAlert.Session.Login

/-!
# The online map

`EntriesOk` says that every entry of `m_userSockets` belongs to an open session
of that user on that socket. A LOGIN adds an entry and the destructor removes
the one of the last user, so the entry of an earlier user is left behind when a
session logs in as somebody else: `entriesOk_step` says that this step, and no
other, breaks the property.
-/

namespace CloudAlert

open Program

/-- Every entry `u` to `sock` belongs to an open session on `sock` whose user is
`u`. -/
def EntriesOk (s : Server) : Prop :=
  ∀ u sock, s.world.userSockets u = some sock →
    ∃ self, s.sessions sock = some self ∧ self.sock = sock ∧ self.userId = u

/-- A LOGIN accepted for a user other than the session's own, while the online
map sends that user to this session. -/
def SwitchesUser (s : Server) : Event → Prop
  | .line sock line => ∃ self word u p rest, s.sessions sock = some self ∧
      commandWord line = ascii "LOGIN" ∧ splitLine line = word :: u :: p :: rest ∧
      0 ≤ s.world.db.verifyLogin .none u p ∧
      s.world.db.verifyLogin .none u p ≠ self.userId ∧
      s.world.userSockets self.userId = some sock
  | _ => False

/-- A session is kept under its socket, and nobody is online as user -1. -/
structure Registered (s : Server) : Prop where
  keyed : ∀ sock self, s.sessions sock = some self → self.sock = sock
  noUser : s.world.userSockets (-1) = none

/-! ## Runs -/

/-- A line other than LOGIN leaves the online map and the session's user alone. -/
theorem dispatch_online (self : Session) {line : Bytes}
    (h : commandWord line ≠ ascii "LOGIN") (w : World) :
    (run exec (dispatch self line) w).1.1 = self ∧
      (run exec (dispatch self line) w).2.userSockets = w.userSockets := by
  have hrun := dispatch_run (w := w) self line
    (fun w' : World => w'.userSockets = w.userSockets) (fun c w' hc hw' => ?_) rfl
  · exact ⟨hrun.2.2.resolve_right h, hrun.1⟩
  · rw [← hw']
    refine exec_userSockets ?_ ?_ w'
    · rintro uid sock rfl
      exact h hc.1
    · rintro uid sock rfl
      exact hc

theorem check_online {p : Action Bool} {pre : Call → Prop}
    (hp : p.Respects pre (fun _ _ => True) fun _ => True)
    (hpre : ∀ c, pre c → ∀ uid sock, c ≠ .registerSocket uid sock ∧
      c ≠ .unregisterSocket uid sock) (w : World) :
    (run exec p w).2.userSockets = w.userSockets := by
  refine (hp.run (fun w' : World => w'.userSockets = w.userSockets)
    (fun c w' hc hw' => ⟨?_, trivial⟩) rfl).1
  rw [← hw']
  exact exec_userSockets (fun uid sock => (hpre c hc uid sock).1)
    (fun uid sock => (hpre c hc uid sock).2) w'

theorem tick_online (contract : Text) (p : ℚ) (w : World) :
    (run exec (checkPriceAlert contract p) w).2.userSockets = w.userSockets := by
  have hpriced : (w.priced contract p).userSockets = w.userSockets := by
    unfold World.priced
    split <;> rfl
  have hloop : (checkPriceLoop p (w.priceAlertCache.at contract)).Respects
      (PriceLoopCall (fun _ => True) p) (fun _ _ => True) fun _ => True :=
    checkPriceLoop_respects fun _ _ => trivial
  rw [run_checkPriceAlert, ← hpriced]
  refine check_online hloop (fun c hc uid sock => ?_) _
  constructor
  · rintro rfl
    exact hc
  · rintro rfl
    exact hc

theorem timerCheck_online (w : World) :
    (run exec checkTimeAlerts w).2.userSockets = w.userSockets := by
  have hloop : (checkTimeLoop (w.db.getPendingTimeAlerts .none (w.clock 0).hms)).Respects
      (TimeLoopCall fun _ => True) (fun _ _ => True) fun _ => True :=
    checkTimeLoop_respects fun _ _ => trivial
  refine check_online (w := w.tickClock) hloop (fun c hc uid sock => ?_)
  constructor
  · rintro rfl
    exact hc
  · rintro rfl
    exact hc

/-! ## Histories -/

/-- What an event does to the open sessions and the online map. -/
inductive OnlineStep (s : Server) : Event → Server → Prop where
  | quiet {e s'} (hmap : s'.world.userSockets = s.world.userSockets)
      (hsessions : s'.sessions = s.sessions) (hswitch : ¬ SwitchesUser s e) :
      OnlineStep s e s'
  | restarted {marketData s'} (hmap : s'.world.userSockets = fun _ => none)
      (hsessions : s'.sessions = fun _ => none) :
      OnlineStep s (.startUp marketData) s'
  | opened {sock s'} (hfree : s.sessions sock = none)
      (hmap : s'.world.userSockets = s.world.userSockets)
      (hsessions : s'.sessions =
        Function.update s.sessions sock (some (Session.new sock))) :
      OnlineStep s (.connect sock) s'
  | login {sock line self word u p rest s'} (hself : s.sessions sock = some self)
      (hword : commandWord line = ascii "LOGIN")
      (htokens : splitLine line = word :: u :: p :: rest)
      (huid : 0 ≤ s.world.db.verifyLogin .none u p)
      (hmap : s'.world.userSockets = Function.update s.world.userSockets
        (s.world.db.verifyLogin .none u p) (some self.sock))
      (hsessions : s'.sessions = Function.update s.sessions sock (some
        { self with userId := s.world.db.verifyLogin .none u p, username := u })) :
      OnlineStep s (.line sock line) s'
  | closed {sock self s'} (hself : s.sessions sock = some self)
      (hmap : ∀ u, s'.world.userSockets u =
        if self.userId ≠ -1 ∧ u = self.userId ∧ s.world.userSockets u = some self.sock
        then none else s.world.userSockets u)
      (hsessions : s'.sessions = Function.update s.sessions sock none) :
      OnlineStep s (.disconnect sock) s'

theorem endSession_online (self : Session) (w : World) (u : ℤ) :
    (run exec (endSession self) w).2.userSockets u =
      if self.userId ≠ -1 ∧ u = self.userId ∧ w.userSockets u = some self.sock
      then none else w.userSockets u := by
  unfold endSession
  split
  · rename_i huser
    simp only [ask, perform, run_call, run_ret, exec, execWith]
    split
    · rename_i hentry
      by_cases hu : u = self.userId
      · subst hu
        simp [huser, hentry]
      · simp [hu]
    · rename_i hentry
      refine (if_neg ?_).symm
      rintro ⟨-, rfl, hu⟩
      exact hentry hu
  · rename_i huser
    exact (if_neg fun h => huser h.1).symm

theorem serve_online {s s' : Server} {e : Event} (hserve : serve exec s e = some s') :
    OnlineStep s e s' := by
  cases step_of_serve hserve with
  | startUp marketData =>
      refine .restarted ?_ rfl
      simp only [run_refresh]
      rfl
  | connect sock hfree => exact .opened hfree rfl rfl
  | line sock line self hself =>
      by_cases hword : commandWord line = ascii "LOGIN"
      · have hout := login_outcome self hword s.world
        generalize (run exec (dispatch self line) s.world).1.1 = self' at hout
        generalize (run exec (dispatch self line) s.world).2 = w' at hout
        cases hout with
        | refused hrefused =>
            refine .quiet rfl ?_ ?_
            · rw [← hself, Function.update_eq_self]
            · rintro ⟨_, word, u, p, rest, _, _, htokens, huid, _⟩
              exact absurd (hrefused word u p rest htokens) (not_lt.mpr huid)
        | accepted htokens huid => exact .login hself hword htokens huid rfl rfl
      · obtain ⟨hkept, hmap⟩ := dispatch_online self hword s.world
        refine .quiet hmap ?_ ?_
        · simp only [hkept]
          rw [← hself, Function.update_eq_self]
        · rintro ⟨_, _, _, _, _, _, hword', _⟩
          exact hword hword'
  | disconnect sock self hself => exact .closed hself (endSession_online self s.world) rfl
  | tick contract p hrun =>
      have hmap := tick_online contract p s.world
      rw [hrun] at hmap
      exact .quiet hmap rfl id
  | timerCheck hrun =>
      have hmap := timerCheck_online s.world
      rw [hrun] at hmap
      exact .quiet hmap rfl id

theorem keyed_update {sessions : Socket → Option Session}
    (h : ∀ sock self, sessions sock = some self → self.sock = sock) {sock₀ : Socket}
    {new : Option Session}
    (hnew : ∀ self, new = some self → self.sock = sock₀) (sock : Socket)
    (self : Session) (hself : Function.update sessions sock₀ new sock = some self) :
    self.sock = sock := by
  by_cases hsock : sock = sock₀
  · rw [hsock, Function.update_self] at hself
    exact (hnew self hself).trans hsock.symm
  · rw [Function.update_of_ne hsock] at hself
    exact h sock self hself

theorem registered_step {s s' : Server} {e : Event} (h : Registered s)
    (hserve : serve exec s e = some s') : Registered s' := by
  cases serve_online hserve with
  | quiet hmap hsessions _ => exact ⟨hsessions ▸ h.keyed, hmap ▸ h.noUser⟩
  | restarted hmap hsessions =>
      refine ⟨fun sock self hself => ?_, by rw [hmap]⟩
      rw [hsessions] at hself
      cases hself
  | opened hfree hmap hsessions =>
      refine ⟨hsessions ▸ keyed_update h.keyed ?_, hmap ▸ h.noUser⟩
      intro self hself
      obtain rfl := Option.some.inj hself
      rfl
  | @login sock₀ line self₀ word u p rest _ hself₀ hword htokens huid hmap hsessions =>
      refine ⟨hsessions ▸ keyed_update h.keyed ?_, ?_⟩
      · intro self hself
        obtain rfl := Option.some.inj hself
        exact h.keyed sock₀ self₀ hself₀
      · rw [hmap, Function.update_of_ne (by omega)]
        exact h.noUser
  | closed hself₀ hmap hsessions =>
      refine ⟨hsessions ▸ keyed_update h.keyed ?_, ?_⟩
      · intro self hself
        cases hself
      · rw [hmap, h.noUser]
        simp

/-- An accepted LOGIN. If it switches the user of the session, the entry of the earlier
user is still there, but its session has moved on. -/
theorem entriesOk_login {s s' : Server} {sock₀ : Socket} {line word u p : Bytes}
    {rest : List Bytes} {self₀ : Session} (h : Registered s) (hok : EntriesOk s)
    (hself₀ : s.sessions sock₀ = some self₀) (hword : commandWord line = ascii "LOGIN")
    (htokens : splitLine line = word :: u :: p :: rest)
    (huid : 0 ≤ s.world.db.verifyLogin .none u p)
    (hmap : s'.world.userSockets = Function.update s.world.userSockets
      (s.world.db.verifyLogin .none u p) (some self₀.sock))
    (hsessions : s'.sessions = Function.update s.sessions sock₀ (some
      { self₀ with userId := s.world.db.verifyLogin .none u p, username := u })) :
    EntriesOk s' ↔ ¬ SwitchesUser s (.line sock₀ line) := by
  have hsock₀ := h.keyed sock₀ self₀ hself₀
  generalize hv : s.world.db.verifyLogin .none u p = v at hmap hsessions huid
  constructor
  · rintro hok' ⟨self, word', u', p', rest', hself, -, htokens', -, hne, hentry⟩
    obtain rfl : self₀ = self := Option.some.inj (hself₀.symm.trans hself)
    obtain ⟨rfl, rfl, rfl, rfl⟩ : word = word' ∧ u = u' ∧ p = p' ∧ rest = rest' := by
      simpa [htokens] using htokens'
    rw [hv] at hne
    have hentry' : s'.world.userSockets self₀.userId = some sock₀ := by
      rw [hmap, Function.update_of_ne hne.symm]
      exact hentry
    obtain ⟨self', hself', -, huser⟩ := hok' _ _ hentry'
    rw [hsessions, Function.update_self] at hself'
    obtain rfl := Option.some.inj hself'
    exact hne huser
  · intro hswitch u' sock hentry
    rw [hmap] at hentry
    rw [hsessions]
    by_cases hu : u' = v
    · subst hu
      rw [Function.update_self, hsock₀] at hentry
      obtain rfl := Option.some.inj hentry
      exact ⟨_, Function.update_self .., hsock₀, rfl⟩
    · rw [Function.update_of_ne hu] at hentry
      obtain ⟨self, hself, hsock, huser⟩ := hok u' sock hentry
      have hne : sock ≠ sock₀ := by
        rintro rfl
        obtain rfl : self₀ = self := Option.some.inj (hself₀.symm.trans hself)
        refine hswitch ⟨self₀, word, u, p, rest, hself₀, hword, htokens, ?_, ?_, ?_⟩
        · rw [hv]
          exact huid
        · rw [hv, huser]
          exact fun heq => hu heq.symm
        · rw [huser]
          exact hentry
      refine ⟨self, ?_, hsock, huser⟩
      rw [Function.update_of_ne hne]
      exact hself

/-- The end of a session removes its entry, if the entry is still its own. -/
theorem entriesOk_closed {s s' : Server} {sock₀ : Socket} {self₀ : Session}
    (h : Registered s) (hok : EntriesOk s) (hself₀ : s.sessions sock₀ = some self₀)
    (hmap : ∀ u, s'.world.userSockets u =
      if self₀.userId ≠ -1 ∧ u = self₀.userId ∧ s.world.userSockets u = some self₀.sock
      then none else s.world.userSockets u)
    (hsessions : s'.sessions = Function.update s.sessions sock₀ none) : EntriesOk s' := by
  intro u sock hentry
  rw [hmap] at hentry
  split at hentry
  · cases hentry
  · rename_i hkept
    obtain ⟨self, hself, hsock, huser⟩ := hok u sock hentry
    have hne : sock ≠ sock₀ := by
      rintro rfl
      obtain rfl : self₀ = self := Option.some.inj (hself₀.symm.trans hself)
      refine hkept ⟨?_, huser.symm, ?_⟩
      · intro hneg
        rw [← huser, hneg, h.noUser] at hentry
        cases hentry
      · rw [hsock]
        exact hentry
    refine ⟨self, ?_, hsock, huser⟩
    rw [hsessions, Function.update_of_ne hne]
    exact hself

/-- One event keeps the map in order exactly if it is not such a LOGIN. -/
theorem entriesOk_step {s s' : Server} {e : Event} (h : Registered s) (hok : EntriesOk s)
    (hserve : serve exec s e = some s') : EntriesOk s' ↔ ¬ SwitchesUser s e := by
  cases serve_online hserve with
  | quiet hmap hsessions hswitch =>
      refine iff_of_true ?_ hswitch
      intro u sock hentry
      rw [hmap] at hentry
      rw [hsessions]
      exact hok u sock hentry
  | restarted hmap hsessions =>
      refine iff_of_true ?_ id
      intro u sock hentry
      rw [hmap] at hentry
      cases hentry
  | @opened sock₀ _ hfree hmap hsessions =>
      refine iff_of_true ?_ id
      intro u sock hentry
      rw [hmap] at hentry
      obtain ⟨self, hself, hrest⟩ := hok u sock hentry
      have hsock : sock ≠ sock₀ := by
        rintro rfl
        rw [hfree] at hself
        cases hself
      refine ⟨self, ?_, hrest⟩
      rw [hsessions, Function.update_of_ne hsock]
      exact hself
  | login hself₀ hword htokens huid hmap hsessions =>
      exact entriesOk_login h hok hself₀ hword htokens huid hmap hsessions
  | closed hself₀ hmap hsessions =>
      exact iff_of_true (entriesOk_closed h hok hself₀ hmap hsessions) id

theorem registered_off (db : AlertDB) (clock : ℕ → LocalTime) :
    Registered (.off db clock) where
  keyed sock self h := by cases h
  noUser := rfl

theorem entriesOk_off (db : AlertDB) (clock : ℕ → LocalTime) :
    EntriesOk (.off db clock) := by
  intro u sock h
  cases h

/-- The map is in order at every point of a history exactly if no LOGIN of the
history switches a session from a user it is online as to another one. -/
theorem entriesOk_iff (db : AlertDB) (clock : ℕ → LocalTime) (history : List Event) :
    (∀ es es' s, history = es ++ es' → serveAll exec (.off db clock) es = some s →
        EntriesOk s) ↔
      ∀ es e es' s, history = es ++ e :: es' →
        serveAll exec (.off db clock) es = some s →
        (serve exec s e).isSome → ¬ SwitchesUser s e :=
  always_iff (registered_off db clock) (fun _ _ _ h hserve => registered_step h hserve)
    (entriesOk_off db clock)
    (fun _ _ _ h hok hserve => entriesOk_step h hok hserve) history

/-- One client registers two accounts and logs in to one after the other. -/
def twoLogins : List Event :=
  [.startUp true, .connect 7, .line 7 (ascii "REGISTER ann pw a@b"),
    .line 7 (ascii "REGISTER bob pw b@b"), .line 7 (ascii "LOGIN ann pw"),
    .line 7 (ascii "LOGIN bob pw")]

set_option maxRecDepth 10000 in
/-- After the second LOGIN the first user is still online on the socket of the
second. -/
theorem entry_of_the_first_user_stays :
    ∃ s, serveAll exec (.off .created fun _ => ⟨2025, 6, 0, 8, 55, 0⟩) twoLogins =
      some s ∧ ¬ EntriesOk s := by
  have hstate : (serveAll exec (.off .created fun _ => ⟨2025, 6, 0, 8, 55, 0⟩)
      twoLogins).map (fun s => (s.world.userSockets 1, s.sessions 7)) =
        some (some 7, some ⟨7, 2, ascii "bob"⟩) := by decide +kernel
  obtain ⟨s, hs, hboth⟩ := Option.map_eq_some_iff.mp hstate
  obtain ⟨hentry, hsession⟩ := Prod.mk.inj hboth
  refine ⟨s, hs, fun hok => ?_⟩
  obtain ⟨self, hself, -, huser⟩ := hok 1 7 hentry
  rw [hsession] at hself
  obtain rfl := Option.some.inj hself
  exact absurd huser (by decide)

end CloudAlert
