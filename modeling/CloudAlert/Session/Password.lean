import CloudAlert.Session.Login

/-!
# Passwords

After REGISTER u p e was answered OK, LOGIN u q should be accepted for q = p
only, and a later REGISTER of u should be refused (`PasswordKept`). The password
is compared as a byte string but stored as a C string, so this is so exactly when
p has no NUL byte (`passwordKept_iff`): otherwise what follows the first NUL byte
is lost, and a password that begins with one is stored as the empty password of
an account that is still to be registered.
-/

namespace CloudAlert

open Program

/-- At this point `p` is the only password for `u`, and `u` is taken. -/
structure PasswordLaw (s : Server) (u p : Bytes) : Prop where
  login : ∀ sock line word q rest, (s.sessions sock).isSome →
    commandWord line = ascii "LOGIN" → splitLine line = word :: u :: q :: rest →
    s.reply exec sock line = some ⟨[if q = p then ascii "OK"
      else ascii "ERR wrong username or password"], false⟩
  register : ∀ sock line word p' e' rest, (s.sessions sock).isSome →
    commandWord line = ascii "REGISTER" →
    splitLine line = word :: u :: p' :: e' :: rest →
    s.reply exec sock line = some ⟨[ascii "ERR username already taken"], false⟩ ∧
      ∃ s', serve exec s (.line sock line) = some s' ∧
        s'.world.db.users = s.world.db.users

/-- The law holds from this point on. -/
def PasswordKept (s : Server) (u p : Bytes) : Prop :=
  ∀ es s', serveAll exec s es = some s' → PasswordLaw s' u p

/-- The row of `u` stores exactly the bytes `p`. -/
def Stored (u p : Bytes) (db : AlertDB) : Prop :=
  p ≠ [] ∧ ∃ r ∈ db.users.rows, r.username = cstr u ∧ r.password.val = p ∧ 0 ≤ r.id

/-- No call changes a stored password. -/
theorem Stored.after {u p : Bytes} (c : Call) (w : World) (h : Stored u p w.db) :
    Stored u p (exec c w).2.db := by
  obtain ⟨hp, r, hr, hname, hpassword, hid⟩ := h
  obtain ⟨r', hr', hid', hname', hpassword'⟩ := user_after c hr
  refine ⟨hp, r', hr', hname'.trans hname, ?_, hid' ▸ hid⟩
  rw [hpassword' (Text.ne_empty (hpassword ▸ hp))]
  exact hpassword

theorem reply_login {s : Server} {sock : Socket} {line word u q : Bytes}
    {rest : List Bytes} (hsession : (s.sessions sock).isSome)
    (hword : commandWord line = ascii "LOGIN")
    (htokens : splitLine line = word :: u :: q :: rest) :
    s.reply exec sock line = some ⟨[if s.world.db.verifyLogin .none u q < 0 then
      ascii "ERR wrong username or password" else ascii "OK"], false⟩ := by
  obtain ⟨self, hself⟩ := Option.isSome_iff_exists.mp hsession
  rw [Server.reply, hself, Option.map_some, dispatch_login hword, run_handleLogin htokens]
  split <;> rfl

theorem passwordLaw_of_stored {s : Server} {u p : Bytes} (h : Stored u p s.world.db) :
    PasswordLaw s u p := by
  obtain ⟨hp, r, hr, hname, hpassword, hid⟩ := h
  constructor
  · intro sock line word q rest hsession hword htokens
    rw [reply_login hsession hword htokens, s.world.db.verifyLogin_of_mem hr hname,
      hpassword]
    by_cases hq : q = p
    · simp [hq, hid]
    · have hpq : p ≠ q := fun heq => hq heq.symm
      simp [hq, hpq]
  · intro sock line word p' e' rest hsession hword htokens
    obtain ⟨self, hself⟩ := Option.isSome_iff_exists.mp hsession
    have htaken : s.world.db.registerUser .none u p' e' = (-1, s.world.db) := by
      have hout := s.world.db.registerUser_outcome u p' e'
      generalize s.world.db.registerUser .none u p' e' = out at hout
      cases hout with
      | taken => rfl
      | @completed r₀ hr₀ hu hempty =>
          obtain rfl := List.inj_on_of_nodup_map s.world.db.unique hr₀ hr
            (hu.trans hname.symm)
          exact absurd hempty (Text.ne_empty (hpassword ▸ hp))
      | inserted hu =>
          exact absurd (List.mem_map.mpr ⟨r, hr, hname⟩) hu
    have hrun := run_handleRegister self htokens s.world
    rw [htaken, ← dispatch_register hword] at hrun
    constructor
    · rw [Server.reply, hself, Option.map_some, hrun]
      rfl
    · simp only [serve, hself, hrun]
      exact ⟨_, rfl, rfl⟩

theorem passwordKept_of_stored {s : Server} {u p : Bytes} (h : Stored u p s.world.db) :
    PasswordKept s u p := by
  intro es s' hs'
  refine passwordLaw_of_stored ?_
  exact serveAll_invariant (fun s e s' hs hserve =>
    serve_db_invariant (fun c w hw => hw.after c w) hs hserve) h hs'

/-- `LOGIN u q`. -/
def loginLine (u q : Bytes) : Bytes := ascii "LOGIN" ++ 32 :: (u ++ 32 :: q)

theorem splitLine_loginLine {u q : Bytes} (hu : IsToken u) (hq : IsToken q) :
    splitLine (loginLine u q) = [ascii "LOGIN", u, q] := by
  have hlogin : IsToken (ascii "LOGIN") := ⟨by decide, by decide +kernel⟩
  rw [loginLine, splitLine_token_append hlogin, splitLine_token_append hu,
    splitLine_token hq]

/-- A password that LOGIN accepts has no NUL byte, since the stored one has none. -/
theorem not_mem_of_passwordLaw {s : Server} {u p : Bytes} {sock : Socket}
    (hsession : (s.sessions sock).isSome) (hu : IsToken u) (hp : IsToken p)
    (h : PasswordLaw s u p) : 0 ∉ p := by
  have hword : commandWord (loginLine u p) = ascii "LOGIN" := rfl
  have hlaw := h.login sock _ _ _ _ hsession hword (splitLine_loginLine hu hp)
  rw [reply_login hsession hword (splitLine_loginLine hu hp), if_pos rfl] at hlaw
  split at hlaw
  · exact absurd hlaw (by decide)
  · rename_i hid
    obtain ⟨r, -, -, hpassword, -⟩ :=
      s.world.db.exists_of_verifyLogin (not_lt.mp hid)
    rw [← hpassword]
    exact r.password.property

/-- What a REGISTER that was answered OK has stored. -/
theorem stored_of_register {s s' : Server} {sock : Socket} {line word u p e : Bytes}
    {rest : List Bytes} (hword : commandWord line = ascii "REGISTER")
    (htokens : splitLine line = word :: u :: p :: e :: rest)
    (hok : s.reply exec sock line = some ⟨[ascii "OK"], false⟩)
    (hserve : serve exec s (.line sock line) = some s') (hp : 0 ∉ p) :
    Stored u p s'.world.db := by
  obtain ⟨self, hself, hreply⟩ := Option.map_eq_some_iff.mp hok
  have hrun := run_handleRegister self htokens s.world
  rw [← dispatch_register hword] at hrun
  have hdb : s'.world.db = (s.world.db.registerUser .none u p e).2 := by
    simp only [serve, hself, hrun] at hserve
    exact (Option.some.inj hserve) ▸ rfl
  have hid : ¬ (s.world.db.registerUser .none u p e).1 < 0 := by
    intro hneg
    rw [hrun, if_pos hneg] at hreply
    have hlines := congrArg Reply.lines hreply
    exact absurd hlines
      (show ¬ [ascii "ERR username already taken"] = [ascii "OK"] by decide)
  have hmem : p ∈ splitLine line := by simp [htokens]
  have hsame : (cstr p).val = p := (cstr_val_eq_iff p).mpr hp
  refine ⟨ne_nil_of_mem_splitLine hmem, ?_⟩
  rw [hdb]
  have hout := s.world.db.registerUser_outcome u p e
  generalize s.world.db.registerUser .none u p e = out at hout hid
  cases hout with
  | taken => exact (hid (by simp)).elim
  | @completed r hr hu hempty hr0 =>
      exact ⟨_, AlertDB.mem_updateUser
        _ hr, by simp [hu], by simp [hsame], by simpa using hr0⟩
  | inserted hu =>
      refine ⟨_, List.mem_append_right _ (List.mem_singleton_self _), rfl, hsame, ?_⟩
      exact not_lt.mp hid

/-- After a REGISTER that was answered OK the password is kept exactly if it has no
NUL byte. -/
theorem passwordKept_iff {s s' : Server} {sock : Socket} {line word u p e : Bytes}
    {rest : List Bytes} (hword : commandWord line = ascii "REGISTER")
    (htokens : splitLine line = word :: u :: p :: e :: rest)
    (hok : s.reply exec sock line = some ⟨[ascii "OK"], false⟩)
    (hserve : serve exec s (.line sock line) = some s') :
    PasswordKept s' u p ↔ 0 ∉ p := by
  constructor
  · intro hkept
    have hsession : (s'.sessions sock).isSome := by
      cases step_of_serve hserve with
      | line => simp
    have hu : u ∈ splitLine line := by simp [htokens]
    have hp : p ∈ splitLine line := by simp [htokens]
    exact not_mem_of_passwordLaw hsession (isToken_of_mem_splitLine hu)
      (isToken_of_mem_splitLine hp) (hkept [] s' rfl)
  · intro hp
    exact passwordKept_of_stored (stored_of_register hword htokens hok hserve hp)

set_option maxRecDepth 10000 in
theorem plain_password_is_kept :
    ∃ s s', serveAll exec (.off .created fun _ => ⟨2025, 6, 0, 8, 55, 0⟩)
        [.startUp true, .connect 7] = some s ∧
      serve exec s (.line 7 (ascii "REGISTER ann pw a@b")) = some s' ∧
      PasswordKept s' (ascii "ann") (ascii "pw") := by
  have hstate : ((serveAll exec (.off .created fun _ => ⟨2025, 6, 0, 8, 55, 0⟩)
      [.startUp true, .connect 7]).map fun s =>
        (s.reply exec 7 (ascii "REGISTER ann pw a@b"),
          (serve exec s (.line 7 (ascii "REGISTER ann pw a@b"))).isSome)) =
      some (some ⟨[ascii "OK"], false⟩, true) := by decide +kernel
  obtain ⟨s, hs, hboth⟩ := Option.map_eq_some_iff.mp hstate
  obtain ⟨hreply, hnext⟩ := Prod.mk.inj hboth
  obtain ⟨s', hs'⟩ := Option.isSome_iff_exists.mp hnext
  have htokens : splitLine (ascii "REGISTER ann pw a@b") =
      [ascii "REGISTER", ascii "ann", ascii "pw", ascii "a@b"] := by decide
  exact ⟨s, s', hs, hs',
    (passwordKept_iff (by decide) htokens hreply hs').mpr (by decide)⟩

/-- REGISTER with a password that begins with a NUL byte. -/
def nulPassword : Bytes := ascii "REGISTER ann " ++ 0 :: ascii "pw a@b"

set_option maxRecDepth 10000 in
/-- It is answered OK, and the password is not kept. -/
theorem nul_password_is_lost :
    ∃ s s', serveAll exec (.off .created fun _ => ⟨2025, 6, 0, 8, 55, 0⟩)
        [.startUp true, .connect 7] = some s ∧
      splitLine nulPassword =
      [ascii "REGISTER", ascii "ann", 0 :: ascii "pw", ascii "a@b"] ∧
      s.reply exec 7 nulPassword = some ⟨[ascii "OK"], false⟩ ∧
      serve exec s (.line 7 nulPassword) = some s' ∧
      ¬ PasswordKept s' (ascii "ann") (0 :: ascii "pw") := by
  have hstate : ((serveAll exec (.off .created fun _ => ⟨2025, 6, 0, 8, 55, 0⟩)
      [.startUp true, .connect 7]).map fun s => (s.reply exec 7 nulPassword,
        (serve exec s (.line 7 nulPassword)).map fun s' => (s'.sessions 7).isSome)) =
      some (some ⟨[ascii "OK"], false⟩, some true) := by decide +kernel
  obtain ⟨s, hs, hboth⟩ := Option.map_eq_some_iff.mp hstate
  obtain ⟨hreply, hnext⟩ := Prod.mk.inj hboth
  obtain ⟨s', hs', hsession⟩ := Option.map_eq_some_iff.mp hnext
  refine ⟨s, s', hs, by decide, hreply, hs', fun hkept => ?_⟩
  have hann : IsToken (ascii "ann") := ⟨by decide, by decide +kernel⟩
  have hnul : IsToken (0 :: ascii "pw") := ⟨by decide, by decide +kernel⟩
  exact not_mem_of_passwordLaw hsession hann hnul (hkept [] s' rfl) List.mem_cons_self

end CloudAlert
