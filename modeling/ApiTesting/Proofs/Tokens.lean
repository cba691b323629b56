import ApiTesting.Lib.Raises
import ApiTesting.Proofs.Accounts

/-! What a password and a token stand for. Whoever registered can log in, and the token is good
for the minutes of the setting; whoever is recognized by a token has logged in within them, as
the same user. -/

namespace ApiTesting

open Keyed Machine Pool

/-- When a token of that time expires. -/
def tokenExpiry (auth : AuthLibraries) (issuedAt : Timestamp) : Timestamp :=
  timegm (issuedAt + auth.accessTokenExpireMinutes * 60 * 1000000) * 1000000

/-- What the libraries promise: a hash verifies its password, a token of the server decodes to its
payload from its `iat` to its `exp`, and an id is read back from its text. -/
structure AuthLibraries.Documented (auth : AuthLibraries) : Prop where
  verify_hash : ∀ password salt, auth.verify (auth.hash password salt) password = .verified
  decode_encode : ∀ subject issuedAt jti now, auth.decode (createAccessToken auth subject issuedAt jti) now =
    if timegm issuedAt * 1000000 ≤ now ∧ now < tokenExpiry auth issuedAt then
      some (accessTokenPayload auth subject issuedAt jti)
    else none
  uuid_text : ∀ id, auth.uuidOfText (auth.uuidText id) = some id

theorem timegm_mul_le (t : Timestamp) : timegm t * 1000000 ≤ t := Nat.div_mul_le_self t 1000000

section
variable {lib : Libraries} {auth : AuthLibraries} {s s' : Accounts} {users : AccountTable} {u : Account}
  {email password token : String} {now : Timestamp}

theorem of_getByEmail (h : users.getByEmail email = some u) : u ∈ users.rows ∧ u.email = email :=
  ⟨List.mem_of_find?_eq_some h, by simpa using List.find?_some h⟩

/-- An address finds its account, where no two accounts share one. -/
theorem getByEmail_eq (hemails : ∀ u ∈ users.rows, ∀ v ∈ users.rows, u.email = v.email → u = v)
    (hu : u ∈ users.rows) : users.getByEmail u.email = some u := by
  obtain ⟨v, hv⟩ := Option.isSome_iff_exists.1 (getByEmail_isSome.2 ⟨u, hu, rfl⟩)
  obtain ⟨hrow, hemail⟩ := of_getByEmail hv
  rw [hv, hemails v hrow u hu hemail]

theorem authenticate_ok (hu : users.getByEmail (normalizedEmail lib email) = some u)
    (hverify : verifyPassword auth password u.hashedPassword = .ok true) (hactive : u.isActive = true) :
    authenticate lib auth users email password = .ok u := by
  simp only [authenticate, hu, hverify, hactive]
  rfl

theorem ok_of_authenticate (h : authenticate lib auth users email password = .ok u) :
    u ∈ users.rows ∧ u.email = normalizedEmail lib email ∧ verifyPassword auth password u.hashedPassword = .ok true := by
  rw [authenticate] at h
  split at h
  case h_1 =>
    obtain ⟨_, -, h⟩ := Fallible.bind_eq_ok_iff.1 h
    cases h
  case h_2 v hv =>
    obtain ⟨verified, hverify, h⟩ := Fallible.bind_eq_ok_iff.1 h
    split at h
    · cases h
    rename_i hverified
    split at h
    · cases h
    cases h
    obtain ⟨hrow, hemail⟩ := of_getByEmail hv
    obtain rfl : verified = true := by simpa using hverified
    exact ⟨hrow, hemail, hverify⟩

theorem getCurrentUser_ok {payload : TokenPayload} {rawUserId : String} {userId : UUID}
    (hdecode : auth.decode token now = some payload) (hsub : payload.sub = some rawUserId)
    (hid : auth.uuidOfText rawUserId = some userId) (hu : users.get? userId = some u) (hactive : u.isActive = true) :
    getCurrentUser auth users token now = .ok u := by
  simp only [getCurrentUser, decodeAccessToken, hdecode, hsub, hid, hu, hactive]
  rfl

theorem ok_of_getCurrentUser (h : getCurrentUser auth users token now = .ok u) :
    ∃ payload rawUserId userId, auth.decode token now = some payload ∧ payload.sub = some rawUserId ∧
      auth.uuidOfText rawUserId = some userId ∧ users.get? userId = some u := by
  rw [getCurrentUser, decodeAccessToken] at h
  cases hdecode : auth.decode token now with
  | none => rw [hdecode] at h; cases h
  | some payload =>
    simp only [hdecode] at h
    split at h
    · cases h
    rename_i rawUserId hsub
    split at h
    · cases h
    rename_i userId hid
    split at h
    · cases h
    rename_i v hv
    split at h
    · cases h
    cases h
    exact ⟨payload, rawUserId, userId, rfl, hsub, hid, hv⟩

end

section
variable {lib : Libraries} {auth : AuthLibraries} {s s' s'' : Accounts} {u : Account}

/-- Accounts are never taken away, and the clock never goes back. -/
theorem kept_step {a : AccountAction} (hsound : s.Sound lib auth) (hs : accountStep lib auth s a = some s') :
    (∀ u ∈ s.users.rows, u ∈ s'.users.rows) ∧ s.clock ≤ s'.clock := by
  cases a with
  | tick d => cases hs; exact ⟨fun _ hu => hu, Nat.le_add_right _ _⟩
  | register payload => cases hs; exact ⟨fun _ hu => hu, le_rfl⟩
  | registration i b =>
    obtain ⟨r, e, hr, he, rfl⟩ := registration_step hs
    refine ⟨fun v hv => ?_, le_rfl⟩
    rcases registrationStep_cases he with ⟨husers, -⟩ | ⟨salt, rfl, -⟩ | ⟨w, call, hphase, -, rfl⟩
    · exact husers ▸ hv
    · exact hv
    · have hholds := hsound.requests r (List.mem_of_getElem? hr)
      rw [RegisterRequest.Holds, hphase] at hholds
      exact (rows_commit (fun v hv => (hholds.2.2 v hv).2) call).1 v hv
  | login username password jti =>
    simp only [accountStep] at hs
    split at hs
    · cases hs; exact ⟨fun _ hu => hu, le_rfl⟩
    · cases hs; exact ⟨fun _ hu => hu, le_rfl⟩
  | currentUser token =>
    simp only [accountStep] at hs
    split at hs
    · cases hs; exact ⟨fun _ hu => hu, le_rfl⟩
    · cases hs; exact ⟨fun _ hu => hu, le_rfl⟩

theorem kept_run {as : List AccountAction} (hsound : s.Sound lib auth) (h : Run (accountStep lib auth) s as s') :
    s'.Sound lib auth ∧ (∀ u ∈ s.users.rows, u ∈ s'.users.rows) ∧ s.clock ≤ s'.clock := by
  refine h.keeps (I := fun t => t.Sound lib auth ∧ (∀ u ∈ s.users.rows, u ∈ t.users.rows) ∧ s.clock ≤ t.clock)
    ⟨hsound, fun _ hu => hu, le_rfl⟩ fun t a t' ⟨hi, hrows, hclock⟩ hs => ?_
  obtain ⟨hrows', hclock'⟩ := kept_step hi hs
  exact ⟨sound_accountStep hi hs, fun u hu => hrows' u (hrows u hu), hclock.trans hclock'⟩

/-- Whoever has registered can log in from then on, with the address in any spelling that comes
to the same, and is recognized by the token until it expires, whatever else happens. -/
theorem credentials_round_trip {as bs cs : List AccountAction} {r : RegisterRequest} {email : String}
    (hauth : auth.Documented) (h : Run (accountStep lib auth) .empty as s) (hr : r ∈ s.registrations)
    (hcreated : r.phase = .created u) (h' : Run (accountStep lib auth) s bs s')
    (hemail : normalizedEmail lib email = normalizedEmail lib r.payload.email)
    (h'' : Run (accountStep lib auth) s' cs s'') (jti : UUID) :
    authenticate lib auth s'.users email r.payload.password = .ok u ∧
      getCurrentUser auth s''.users (createAccessToken auth u.id s'.clock jti) s''.clock =
        if s''.clock < tokenExpiry auth s'.clock then .ok u else .error .invalidToken := by
  obtain ⟨hrow, hmakes⟩ := (sound_accounts h).created hr hcreated
  obtain ⟨hsound', hrows', -⟩ := kept_run (sound_accounts h) h'
  obtain ⟨-, hrows'', hclock⟩ := kept_run hsound' h''
  have hrow' := hrows' u hrow
  constructor
  · refine authenticate_ok ?_ ?_ hmakes.isActive
    · rw [hemail, ← hmakes.email]
      exact getByEmail_eq hsound'.emails hrow'
    · obtain ⟨salt, hu⟩ := hmakes
      rw [hu, verifyPassword, UserRegister.account, hauth.verify_hash]
  · have hdecode := hauth.decode_encode u.id s'.clock jti s''.clock
    have hiat : timegm s'.clock * 1000000 ≤ s''.clock := (timegm_mul_le _).trans hclock
    split
    case isTrue hlt =>
      rw [if_pos ⟨hiat, hlt⟩] at hdecode
      exact getCurrentUser_ok hdecode rfl (hauth.uuid_text u.id)
        (Table.get?_eq_some_iff.2 ⟨hrows'' u hrow', rfl⟩) hmakes.isActive
    case isFalse hge =>
      rw [if_neg fun h => hge h.2] at hdecode
      rw [getCurrentUser, decodeAccessToken, hdecode]

theorem timegm_expiry (t : Timestamp) :
    timegm (t + 3600000000) = timegm t + 3600 :=
  Nat.add_mul_div_right t 3600 (show 0 < 1000000 by decide)

theorem documented_plainAuth : plainAuth.Documented where
  verify_hash := fun _ _ => if_pos rfl
  decode_encode := fun subject issuedAt jti now => by
    simp [createAccessToken, accessTokenPayload, plainAuth, tokenExpiry, timegm_expiry, List.count_append,
      List.count_replicate]
  uuid_text := fun id => by simp [plainAuth]

def ada : Account := ⟨0, "ada@lab.io", "first-password", "Ada", true⟩

/-- Ada has registered. -/
def adaRegistered : Accounts :=
  final (accountStep plainLibraries plainAuth) .empty
    [.register ⟨"ada@lab.io", "first-password", "Ada"⟩, .registration 0 .check, .registration 0 (.create 1),
      .registration 0 (.commit .ok)]

/-- She logs in some time later, and waits. -/
def adaWaits (d : Timestamp) : Accounts :=
  final (accountStep plainLibraries plainAuth) adaRegistered [.login "ada@lab.io " "first-password" 7, .tick d]

theorem run_adaRegistered : ∃ as, Run (accountStep plainLibraries plainAuth) .empty as adaRegistered :=
  ⟨_, run_final _ (by decide +kernel)⟩

theorem credentials_round_trip_ada :
    authenticate plainLibraries plainAuth adaRegistered.users "ada@lab.io " "first-password" = .ok ada ∧
      getCurrentUser plainAuth (adaWaits 3599000000).users (createAccessToken plainAuth 0 0 7)
          (adaWaits 3599000000).clock = .ok ada ∧
      getCurrentUser plainAuth (adaWaits 3600000000).users (createAccessToken plainAuth 0 0 7)
          (adaWaits 3600000000).clock = .error .invalidToken := by
  obtain ⟨as, hrun⟩ := run_adaRegistered
  have hmem : (⟨⟨"ada@lab.io", "first-password", "Ada"⟩, .created ada⟩ : RegisterRequest) ∈
      adaRegistered.registrations := .head _
  have hemail : normalizedEmail plainLibraries "ada@lab.io " = normalizedEmail plainLibraries "ada@lab.io" := by
    decide +kernel
  have hsoon := credentials_round_trip documented_plainAuth hrun hmem rfl .nil hemail
    (run_final [.login "ada@lab.io " "first-password" 7, .tick 3599000000] (by decide +kernel)) 7
  have hlate := credentials_round_trip documented_plainAuth hrun hmem rfl .nil hemail
    (run_final [.login "ada@lab.io " "first-password" 7, .tick 3600000000] (by decide +kernel)) 7
  exact ⟨hsoon.1, hsoon.2.trans (if_pos (by decide +kernel)), hlate.2.trans (if_neg (by decide +kernel))⟩

/-- Clients present tokens that the server has issued, or what does not decode. -/
def unforged (auth : AuthLibraries) (s : Accounts) : AccountAction → Bool
  | .currentUser token => (auth.decode token s.clock).isNone || s.issued.any fun k => k.token = token
  | _ => true

/-- Each token was issued to a user who gave the password, and each recognition rests on one. -/
structure Accounts.Accounted (lib : Libraries) (auth : AuthLibraries) (s : Accounts) : Prop where
  sound : s.Sound lib auth
  tokens : ∀ k ∈ s.issued, (∃ jti, k.token = createAccessToken auth k.user.id k.at_ jti) ∧
    k.user ∈ s.users.rows ∧ k.at_ ≤ s.clock
  logins : ∀ k ∈ s.issued, k.user.email = normalizedEmail lib k.username ∧
    verifyPassword auth k.password k.user.hashedPassword = .ok true
  recognized : ∀ q ∈ s.recognized, ∃ k ∈ s.issued, k.token = q.token ∧ k.user = q.user ∧
    k.at_ ≤ q.at_ ∧ q.at_ < tokenExpiry auth k.at_

theorem accounted_step (hauth : auth.Documented) {a : AccountAction} (h : s.Accounted lib auth) (ha : unforged auth s a)
    (hs : accountStep lib auth s a = some s') : s'.Accounted lib auth := by
  have hsound := sound_accountStep h.sound hs
  obtain ⟨hrows, hclock⟩ := kept_step h.sound hs
  have htokens : ∀ k ∈ s.issued, (∃ jti, k.token = createAccessToken auth k.user.id k.at_ jti) ∧
      k.user ∈ s'.users.rows ∧ k.at_ ≤ s'.clock := fun k hk =>
    (h.tokens k hk).imp_right fun hrest => ⟨hrows _ hrest.1, hrest.2.trans hclock⟩
  cases a with
  | tick d => cases hs; exact ⟨hsound, htokens, h.logins, h.recognized⟩
  | register payload => cases hs; exact ⟨hsound, htokens, h.logins, h.recognized⟩
  | registration i b =>
    obtain ⟨r, e, hr, he, rfl⟩ := registration_step hs
    exact ⟨hsound, htokens, h.logins, h.recognized⟩
  | login username password jti =>
    simp only [accountStep] at hs
    split at hs
    case h_1 user hlogin =>
      cases hs
      obtain ⟨hrow, hemail, hverify⟩ := ok_of_authenticate hlogin
      refine ⟨hsound, fun k hk => ?_, fun k hk => ?_, fun q hq => ?_⟩
      · rcases List.mem_append.1 hk with hk | hk
        · exact htokens k hk
        · rw [List.mem_singleton.1 hk]
          exact ⟨⟨jti, rfl⟩, hrow, le_rfl⟩
      · rcases List.mem_append.1 hk with hk | hk
        · exact h.logins k hk
        · rw [List.mem_singleton.1 hk]
          exact ⟨hemail, hverify⟩
      · obtain ⟨k, hk, hrest⟩ := h.recognized q hq
        exact ⟨k, List.mem_append_left _ hk, hrest⟩
    case h_2 => cases hs; exact h
  | currentUser token =>
    simp only [accountStep] at hs
    split at hs
    case h_1 user hrecognized =>
      cases hs
      refine ⟨hsound, htokens, h.logins, fun q hq => ?_⟩
      rcases List.mem_append.1 hq with hq | hq
      · exact h.recognized q hq
      obtain rfl := List.mem_singleton.1 hq
      obtain ⟨payload, rawUserId, userId, hdecode, hsub, hid, hu⟩ := ok_of_getCurrentUser hrecognized
      have hissued : ∃ k ∈ s.issued, k.token = token := by simpa [unforged, hdecode] using ha
      obtain ⟨k, hk, rfl⟩ := hissued
      obtain ⟨⟨jti, htoken⟩, hrow, hissued⟩ := h.tokens k hk
      have hpayload := hauth.decode_encode k.user.id k.at_ jti s.clock
      rw [← htoken, hdecode] at hpayload
      split at hpayload
      case isTrue htime =>
        obtain rfl := Option.some.inj hpayload
        obtain rfl := Option.some.inj hsub
        obtain rfl := Option.some.inj ((hauth.uuid_text k.user.id).symm.trans hid)
        rw [Table.get?_eq_some_iff.2 ⟨hrow, rfl⟩] at hu
        exact ⟨k, hk, rfl, Option.some.inj hu, hissued, htime.2⟩
      case isFalse => cases hpayload
    case h_2 => cases hs; exact h

/-- Whomever the platform takes a request to be from has logged in with the password of the
account while its token was good, where tokens cannot be forged. -/
theorem recognized_after_login {as : List AccountAction} (hauth : auth.Documented)
    (h : Run (accountStep lib auth) .empty as s) (hunforged : Each (accountStep lib auth) (fun s a => unforged auth s a) .empty as) :
    ∀ q ∈ s.recognized, ∃ k ∈ s.issued, k.token = q.token ∧ k.user = q.user ∧
      q.user.email = normalizedEmail lib k.username ∧
      verifyPassword auth k.password q.user.hashedPassword = .ok true ∧ k.at_ ≤ q.at_ ∧
      q.at_ < k.at_ + auth.accessTokenExpireMinutes * 60 * 1000000 := by
  have haccounted : s.Accounted lib auth :=
    h.invariant hunforged ⟨sound_empty_accounts, List.forall_mem_nil _, List.forall_mem_nil _, List.forall_mem_nil _⟩
      fun _ _ _ hi ha hs => accounted_step hauth hi ha hs
  intro q hq
  obtain ⟨k, hk, htoken, huser, hissued, hexpiry⟩ := haccounted.recognized q hq
  obtain ⟨hemail, hverify⟩ := haccounted.logins k hk
  exact ⟨k, hk, htoken, huser, huser ▸ hemail, huser ▸ hverify, hissued, hexpiry.trans_le (timegm_mul_le _)⟩

/-- Ada logs in and asks who she is; somebody without a token asks too. -/
def adaAsks : List AccountAction :=
  [.register ⟨"ada@lab.io", "first-password", "Ada"⟩, .registration 0 .check, .registration 0 (.create 1),
    .registration 0 (.commit .ok), .tick 2000000, .login "ada@lab.io " "first-password" 7, .tick 1000000,
    .currentUser (createAccessToken plainAuth 0 2000000 7), .currentUser "bbbbb"]

theorem recognized_after_login_ada :
    ∃ k ∈ (final (accountStep plainLibraries plainAuth) .empty adaAsks).issued,
      k.password = ada.hashedPassword ∧ 3000000 < k.at_ + 60 * 60 * 1000000 := by
  have hrecognized : (⟨createAccessToken plainAuth 0 2000000 7, ada, 3000000⟩ : Recognition) ∈
      (final (accountStep plainLibraries plainAuth) .empty adaAsks).recognized := .head _
  obtain ⟨k, hk, -, -, -, hverify, -, hlt⟩ := recognized_after_login documented_plainAuth
    (run_final adaAsks (by decide +kernel)) (each_of_eachB (fun _ _ h => h) (by decide +kernel)) _ hrecognized
  refine ⟨k, hk, ?_, hlt⟩
  by_contra hne
  simp [verifyPassword, plainAuth, Ne.symm hne] at hverify

end

end ApiTesting
