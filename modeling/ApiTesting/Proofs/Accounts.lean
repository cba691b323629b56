import ApiTesting.Lib.Pool
import ApiTesting.Proofs.Launch
import ApiTesting.Spec.Accounts

/-! One account for each address, though registrations interleave: a registration that gets past
its SELECT meets the unique index at its INSERT, and from there on nobody else does. -/

namespace ApiTesting

open Keyed Machine Pool

/-- The row of a registration from its INSERT on. -/
def RegisterPhase.account? : RegisterPhase → Option Account
  | .flushed user => some user
  | .created user => some user
  | _ => none

section
variable {lib : Libraries} {auth : AuthLibraries} {s s' : Accounts} {users : AccountTable} {u v : Account}
  {r : RegisterRequest} {a : RegistrationAction} {e : RegistrationEffect} {i : ℕ}

/-- A row that `register` inserts for the payload. -/
def UserRegister.Makes (lib : Libraries) (auth : AuthLibraries) (payload : UserRegister) (u : Account) : Prop :=
  ∃ salt, u = payload.account lib auth u.id salt

theorem getByEmail_isSome {email : String} : (users.getByEmail email).isSome ↔ ∃ u ∈ users.rows, u.email = email := by
  simp [AccountTable.getByEmail, List.find?_isSome]

/-- What has become of a registration so far. -/
def RegisterRequest.Holds (lib : Libraries) (auth : AuthLibraries) (s : Accounts) (r : RegisterRequest) : Prop :=
  match r.phase with
  | .flushed u => u.id < s.nextId ∧ r.payload.Makes lib auth u ∧ ∀ v ∈ s.users.rows, v.email ≠ u.email ∧ v.id ≠ u.id
  | .created u => u ∈ s.users.rows ∧ r.payload.Makes lib auth u
  | .rejected e => e = .emailAlreadyRegistered ∧ ∃ u ∈ s.users.rows, u.email = normalizedEmail lib r.payload.email
  | _ => True

structure Accounts.Sound (lib : Libraries) (auth : AuthLibraries) (s : Accounts) : Prop where
  ids : ∀ u ∈ s.users.rows, u.id < s.nextId
  emails : ∀ u ∈ s.users.rows, ∀ v ∈ s.users.rows, u.email = v.email → u = v
  requests : ∀ r ∈ s.registrations, r.Holds lib auth s
  distinct : ∀ (i j : ℕ) (r q : RegisterRequest) (u v : Account), s.registrations[i]? = some r →
    s.registrations[j]? = some q → r.phase.account? = some u → q.phase.account? = some v → i ≠ j →
    u.email ≠ v.email ∧ u.id ≠ v.id
  origin : ∀ u ∈ s.users.rows, ∃ r ∈ s.registrations,
    (r.phase = .created u ∨ r.phase = .failed) ∧ r.payload.Makes lib auth u

/-- What one statement of a registration does. -/
theorem registrationStep_cases (h : registrationStep lib auth s r a = some e) :
    (e.users = s.users ∧ s.nextId ≤ e.nextId ∧ r.phase.isOpen ∧ e.phase.account? = none ∧
        (∀ x, e.phase = .rejected x → x = .emailAlreadyRegistered ∧
          ∃ u ∈ s.users.rows, u.email = normalizedEmail lib r.payload.email)) ∨
      (∃ salt, e = ⟨.flushed (r.payload.account lib auth s.nextId salt), s.users, s.nextId + 1⟩ ∧ r.phase = .checked ∧
        (∀ q ∈ s.registrations, ∀ v, q.phase = .flushed v → v.email ≠ normalizedEmail lib r.payload.email) ∧
        ∀ v ∈ s.users.rows, v.email ≠ normalizedEmail lib r.payload.email) ∨
      ∃ u call, r.phase = .flushed u ∧ a = .commit call ∧ e = ⟨if call.returned then .created u else .failed,
        if call.tookEffect then s.users.set u else s.users, s.nextId⟩ := by
  simp only [registrationStep] at h
  split at h
  case h_1 hphase =>
    cases h
    refine .inl ⟨rfl, le_rfl, by rw [hphase]; rfl, by split <;> rfl, fun x hx => ?_⟩
    split at hx
    case isTrue htaken =>
      cases hx
      exact ⟨rfl, getByEmail_isSome.1 htaken⟩
    case isFalse => cases hx
  case h_2 salt hphase =>
    split at h
    · cases h
    · rename_i hheld
      cases h
      cases htaken : (s.users.getByEmail (normalizedEmail lib r.payload.email)).isSome with
      | true =>
        refine .inl ⟨rfl, Nat.le_succ _, by rw [hphase]; rfl, rfl, fun x hx => ?_⟩
        cases hx
        exact ⟨rfl, getByEmail_isSome.1 htaken⟩
      | false =>
        refine .inr (.inl ⟨salt, rfl, hphase, fun q hq v hv heq => hheld ?_, fun v hv heq => ?_⟩)
        · refine List.any_eq_true.2 ⟨q, hq, ?_⟩
          rw [RegisterRequest.holds, hv]
          exact decide_eq_true heq
        · rw [getByEmail_isSome.2 ⟨v, hv, heq⟩] at htaken
          cases htaken
  case h_3 call u hphase =>
    cases h
    exact .inr (.inr ⟨u, call, hphase, rfl, rfl⟩)
  case h_4 =>
    split at h
    case isTrue hopen =>
      cases h
      exact .inl ⟨rfl, le_rfl, hopen, rfl, fun _ h => by cases h⟩
    case isFalse => cases h
  case h_5 => cases h

theorem mem_set_fresh (hfresh : ∀ v ∈ users.rows, v.id ≠ u.id) : v ∈ (users.set u).rows ↔ v = u ∨ v ∈ users.rows := by
  constructor
  · exact Table.mem_rows_set
  · intro hv
    have hget : (users.set u).get? v.id = some v := by
      rw [Table.get?_set]
      rcases hv with rfl | hv
      · rw [if_pos rfl]
      · rw [if_neg (hfresh v hv), Table.get?_eq_some_iff]
        exact ⟨hv, rfl⟩
    exact (Table.get?_eq_some_iff.1 hget).1

/-- What one registration does with its row is nothing to the others. -/
theorem holds_mono (h : r.Holds lib auth s) (hnext : s.nextId ≤ s'.nextId)
    (hkept : ∀ v ∈ s.users.rows, v ∈ s'.users.rows)
    (hnew : ∀ u, r.phase = .flushed u → ∀ v ∈ s'.users.rows, v ∈ s.users.rows ∨ v.email ≠ u.email ∧ v.id ≠ u.id) :
    r.Holds lib auth s' := by
  rw [RegisterRequest.Holds] at h ⊢
  split at h
  case h_1 u hphase =>
    refine ⟨h.1.trans_le hnext, h.2.1, fun v hv => ?_⟩
    rcases hnew u hphase v hv with hold | hne
    · exact h.2.2 v hold
    · exact hne
  case h_2 => exact ⟨hkept _ h.1, h.2⟩
  case h_3 =>
    obtain ⟨he, v, hv, hemail⟩ := h
    exact ⟨he, v, hkept v hv, hemail⟩
  case h_4 => exact h

/-- A registration that is over stays what it is. -/
theorem origin_kept {r' : RegisterRequest} (hr : s.registrations[i]? = some r) (hopen : r.phase.isOpen)
    (h : ∃ q ∈ s.registrations, (q.phase = .created u ∨ q.phase = .failed) ∧ q.payload.Makes lib auth u) :
    ∃ q ∈ s.registrations.set i r', (q.phase = .created u ∨ q.phase = .failed) ∧ q.payload.Makes lib auth u := by
  obtain ⟨q, hq, hphase, hmakes⟩ := h
  obtain ⟨j, hj⟩ := List.mem_iff_getElem?.1 hq
  have hij : i ≠ j := by
    rintro rfl
    obtain rfl := Option.some.inj (hr.symm.trans hj)
    rcases hphase with hphase | hphase
    · rw [hphase] at hopen
      cases hopen
    · rw [hphase] at hopen
      cases hopen
  exact ⟨q, List.mem_of_getElem? ((List.getElem?_set_ne hij).trans hj), hphase, hmakes⟩

/-- A statement that writes nothing. -/
theorem sound_statement (h : s.Sound lib auth) (hr : s.registrations[i]? = some r) {phase : RegisterPhase} {nextId : UUID}
    (hnext : s.nextId ≤ nextId) (hopen : r.phase.isOpen) (hphase : phase.account? = none)
    (hrejected : ∀ x, phase = .rejected x → x = .emailAlreadyRegistered ∧
      ∃ u ∈ s.users.rows, u.email = normalizedEmail lib r.payload.email) :
    Accounts.Sound lib auth { s with nextId, registrations := s.registrations.set i { r with phase } } where
  ids := fun u hu => (h.ids u hu).trans_le hnext
  emails := h.emails
  requests := by
    intro q hq
    rcases List.mem_or_eq_of_mem_set hq with hq | rfl
    · exact holds_mono (h.requests q hq) hnext (fun _ hv => hv) fun _ _ _ hv => .inl hv
    · cases phase with
      | rejected x => exact hrejected x rfl
      | flushed u => cases hphase
      | created u => cases hphase
      | _ => trivial
  distinct := by
    intro j k q q' u v hq hq' hu hv hjk
    rcases of_getElem?_set hq with ⟨-, rfl⟩ | ⟨-, hq⟩
    · cases hphase.symm.trans hu
    rcases of_getElem?_set hq' with ⟨-, rfl⟩ | ⟨-, hq'⟩
    · cases hphase.symm.trans hv
    exact h.distinct j k q q' u v hq hq' hu hv hjk
  origin := fun u hu => origin_kept hr hopen (h.origin u hu)

/-- A row, once flushed, is different from every other one in address and id. -/
theorem sound_flushed (h : s.Sound lib auth) (hr : s.registrations[i]? = some r) (hphase : r.phase = .checked) (salt : ℕ)
    (hheld : ∀ q ∈ s.registrations, ∀ v, q.phase = .flushed v → v.email ≠ normalizedEmail lib r.payload.email)
    (hfree : ∀ v ∈ s.users.rows, v.email ≠ normalizedEmail lib r.payload.email) :
    Accounts.Sound lib auth { s with
      nextId := s.nextId + 1
      registrations := s.registrations.set i { r with phase := .flushed (r.payload.account lib auth s.nextId salt) } } := by
  have hother : ∀ q ∈ s.registrations, ∀ v, q.phase.account? = some v →
      v.email ≠ normalizedEmail lib r.payload.email ∧ v.id ≠ s.nextId := by
    intro q hq v hv
    have hholds := h.requests q hq
    rw [RegisterRequest.Holds] at hholds
    cases hq' : q.phase with
    | flushed w =>
      rw [hq'] at hv hholds
      cases hv
      exact ⟨hheld q hq v hq', hholds.1.ne⟩
    | created w =>
      rw [hq'] at hv hholds
      cases hv
      exact ⟨hfree v hholds.1, (h.ids v hholds.1).ne⟩
    | _ => rw [hq'] at hv; cases hv
  refine ⟨fun u hu => Nat.lt_succ_of_lt (h.ids u hu), h.emails, fun q hq => ?_, ?_, fun u hu => ?_⟩
  · rcases List.mem_or_eq_of_mem_set hq with hq | rfl
    · exact holds_mono (h.requests q hq) (Nat.le_succ _) (fun _ hv => hv) fun _ _ _ hv => .inl hv
    · exact ⟨Nat.lt_succ_self _, ⟨salt, rfl⟩, fun v hv => ⟨hfree v hv, (h.ids v hv).ne⟩⟩
  · intro j k q q' u v hq hq' hu hv hjk
    rcases of_getElem?_set hq with ⟨rfl, rfl⟩ | ⟨-, hq⟩
    · cases hu
      rcases of_getElem?_set hq' with ⟨rfl, -⟩ | ⟨-, hq'⟩
      · exact absurd rfl hjk
      · exact (hother q' (List.mem_of_getElem? hq') v hv).imp Ne.symm Ne.symm
    · rcases of_getElem?_set hq' with ⟨-, rfl⟩ | ⟨-, hq'⟩
      · cases hv
        exact hother q (List.mem_of_getElem? hq) u hu
      · exact h.distinct j k q q' u v hq hq' hu hv hjk
  · exact origin_kept hr (by rw [hphase]; rfl) (h.origin u hu)

/-- What a COMMIT of a flushed row leaves in the table. -/
theorem rows_commit (hfresh : ∀ v ∈ users.rows, v.id ≠ u.id) (call : Call) :
    let users' := if call.tookEffect then users.set u else users
    (∀ v ∈ users.rows, v ∈ users'.rows) ∧ (∀ v ∈ users'.rows, v = u ∨ v ∈ users.rows) ∧
      (call.returned → u ∈ users'.rows) := by
  cases call with
  | raisedBefore => exact ⟨fun _ hv => hv, fun _ hv => .inr hv, fun h => by cases h⟩
  | ok =>
    exact ⟨fun v hv => (mem_set_fresh hfresh).2 (.inr hv), fun v hv => (mem_set_fresh hfresh).1 hv,
      fun _ => (mem_set_fresh hfresh).2 (.inl rfl)⟩
  | raisedAfter =>
    exact ⟨fun v hv => (mem_set_fresh hfresh).2 (.inr hv), fun v hv => (mem_set_fresh hfresh).1 hv,
      fun h => by cases h⟩

/-- The row that a registration commits is the first with its address. -/
theorem sound_committed (h : s.Sound lib auth) (hr : s.registrations[i]? = some r) (hphase : r.phase = .flushed u)
    (call : Call) :
    Accounts.Sound lib auth { s with
      users := if call.tookEffect then s.users.set u else s.users
      registrations := s.registrations.set i { r with phase := if call.returned then .created u else .failed } } := by
  have hholds := h.requests r (List.mem_of_getElem? hr)
  rw [RegisterRequest.Holds, hphase] at hholds
  obtain ⟨hnext, hmakes, hfresh⟩ := hholds
  obtain ⟨hkept, hrows, hmine⟩ := rows_commit (fun v hv => (hfresh v hv).2) call
  generalize (if call.tookEffect then s.users.set u else s.users) = users' at hkept hrows hmine ⊢
  refine ⟨fun v hv => ?_, fun v hv w hw heq => ?_, fun q hq => ?_, ?_, fun v hv => ?_⟩
  · rcases hrows v hv with rfl | hv
    · exact hnext
    · exact h.ids v hv
  · rcases hrows v hv with hv' | hv'
    · rcases hrows w hw with hw' | hw'
      · exact hv'.trans hw'.symm
      · exact absurd (heq.symm.trans (congrArg Account.email hv')) (hfresh w hw').1
    · rcases hrows w hw with hw' | hw'
      · exact absurd (heq.trans (congrArg Account.email hw')) (hfresh v hv').1
      · exact h.emails v hv' w hw' heq
  · obtain ⟨j, hj⟩ := List.mem_iff_getElem?.1 hq
    rcases of_getElem?_set hj with ⟨-, rfl⟩ | ⟨hji, hj'⟩
    · cases hreturned : call.returned with
      | true => exact ⟨hmine hreturned, hmakes⟩
      | false => trivial
    · refine holds_mono (h.requests q (List.mem_of_getElem? hj')) le_rfl hkept fun w hw v hv => ?_
      rcases hrows v hv with hv' | hv'
      · rw [hv']
        exact .inr (h.distinct i j r q u w hr hj' (by rw [hphase]; rfl) (by rw [hw]; rfl) hji.symm)
      · exact .inl hv'
  · have hself : ∀ v, (if call.returned then RegisterPhase.created u else .failed).account? = some v → v = u := by
      intro v hv
      split at hv
      · exact (Option.some.inj hv).symm
      · cases hv
    intro j k q q' v w hq hq' hv hw hjk
    have hu : r.phase.account? = some u := by rw [hphase]; rfl
    rcases of_getElem?_set hq with ⟨rfl, rfl⟩ | ⟨-, hqo⟩
    · rw [hself v hv]
      rcases of_getElem?_set hq' with ⟨rfl, -⟩ | ⟨-, hqo'⟩
      · exact absurd rfl hjk
      · exact h.distinct j k r q' u w hr hqo' hu hw hjk
    · rcases of_getElem?_set hq' with ⟨rfl, rfl⟩ | ⟨-, hqo'⟩
      · rw [hself w hw]
        exact h.distinct j k q r v u hqo hr hv hu hjk
      · exact h.distinct j k q q' v w hqo hqo' hv hw hjk
  · rcases hrows v hv with rfl | hv
    · obtain ⟨hi, -⟩ := List.getElem?_eq_some_iff.1 hr
      refine ⟨_, List.mem_of_getElem? (List.getElem?_set_self hi), ?_, hmakes⟩
      cases call.returned with
      | true => exact .inl rfl
      | false => exact .inr rfl
    · exact origin_kept hr (by rw [hphase]; rfl) (h.origin v hv)

theorem sound_registration (h : s.Sound lib auth) (hr : s.registrations[i]? = some r)
    (hs : registrationStep lib auth s r a = some e) :
    Accounts.Sound lib auth { s with
      users := e.users
      nextId := e.nextId
      registrations := s.registrations.set i { r with phase := e.phase } } := by
  rcases registrationStep_cases hs with ⟨husers, hnext, hopen, hphase, hrejected⟩ |
    ⟨salt, rfl, hphase, hheld, hfree⟩ | ⟨u, call, hphase, -, rfl⟩
  · rw [husers]
    exact sound_statement h hr hnext hopen hphase hrejected
  · exact sound_flushed h hr hphase salt hheld hfree
  · exact sound_committed h hr hphase call

theorem sound_empty_accounts : Accounts.empty.Sound lib auth where
  ids := List.forall_mem_nil _
  emails := List.forall_mem_nil _
  requests := List.forall_mem_nil _
  distinct := by
    intro i j r q u v hr
    simp [Accounts.empty] at hr
  origin := List.forall_mem_nil _

theorem registration_step {i : ℕ} {a : RegistrationAction}
    (hs : accountStep lib auth s (.registration i a) = some s') :
    ∃ r e, s.registrations[i]? = some r ∧ registrationStep lib auth s r a = some e ∧
      s' = { s with
        users := e.users
        nextId := e.nextId
        registrations := s.registrations.set i { r with phase := e.phase } } := by
  simp only [accountStep] at hs
  split at hs
  case h_1 r hr =>
    obtain ⟨e, he, rfl⟩ := Option.map_eq_some_iff.1 hs
    exact ⟨r, e, hr, he, rfl⟩
  case h_2 => cases hs

/-- A login or a request leaves the accounts as they are. -/
theorem sound_accountStep {a : AccountAction} (h : s.Sound lib auth) (hs : accountStep lib auth s a = some s') :
    s'.Sound lib auth := by
  cases a with
  | tick d => cases hs; exact ⟨h.ids, h.emails, h.requests, h.distinct, h.origin⟩
  | register payload =>
    cases hs
    refine ⟨h.ids, h.emails, fun r hr => ?_, fun i j r q u v hr hq hu hv hij => ?_, fun u hu => ?_⟩
    · rcases List.mem_append.1 hr with hr | hr
      · exact h.requests r hr
      · rw [List.mem_singleton.1 hr]
        trivial
    · rcases of_getElem?_concat hr with rfl | hr
      · cases hu
      rcases of_getElem?_concat hq with rfl | hq
      · cases hv
      exact h.distinct i j r q u v hr hq hu hv hij
    · obtain ⟨r, hr, hrest⟩ := h.origin u hu
      exact ⟨r, List.mem_append_left _ hr, hrest⟩
  | registration i b =>
    obtain ⟨r, e, hr, he, rfl⟩ := registration_step hs
    exact sound_registration h hr he
  | login username password jti =>
    simp only [accountStep] at hs
    split at hs
    · cases hs; exact ⟨h.ids, h.emails, h.requests, h.distinct, h.origin⟩
    · cases hs; exact h
  | currentUser token =>
    simp only [accountStep] at hs
    split at hs
    · cases hs; exact ⟨h.ids, h.emails, h.requests, h.distinct, h.origin⟩
    · cases hs; exact h

theorem sound_accounts {as : List AccountAction} (h : Run (accountStep lib auth) .empty as s) : s.Sound lib auth :=
  h.keeps sound_empty_accounts fun _ _ _ hi hs => sound_accountStep hi hs

theorem Accounts.Sound.created (h : s.Sound lib auth) (hr : r ∈ s.registrations) (hphase : r.phase = .created u) :
    u ∈ s.users.rows ∧ r.payload.Makes lib auth u := by
  have hholds := h.requests r hr
  rw [RegisterRequest.Holds, hphase] at hholds
  exact hholds

theorem UserRegister.Makes.email {payload : UserRegister} (h : payload.Makes lib auth u) :
    u.email = normalizedEmail lib payload.email := by
  obtain ⟨salt, hu⟩ := h
  rw [hu]
  rfl

theorem UserRegister.Makes.isActive {payload : UserRegister} (h : payload.Makes lib auth u) : u.isActive = true := by
  obtain ⟨salt, hu⟩ := h
  rw [hu]
  rfl

/-- However the registrations for one address interleave: at most one of them creates an account,
the ones that are turned away are told that the address is taken, and it is; once all are over and
none has failed, exactly one has created it. -/
theorem one_account_per_address {as : List AccountAction} (h : Run (accountStep lib auth) .empty as s) :
    (∀ u ∈ s.users.rows, ∀ v ∈ s.users.rows, u.email = v.email → u = v) ∧
      (∀ r ∈ s.registrations, ∀ e, r.phase = .rejected e →
        e = .emailAlreadyRegistered ∧ ∃ u ∈ s.users.rows, u.email = normalizedEmail lib r.payload.email) ∧
      ∀ email, (∃ r ∈ s.registrations, normalizedEmail lib r.payload.email = email) →
        (∀ r ∈ s.registrations, normalizedEmail lib r.payload.email = email →
          r.phase.isOpen = false ∧ r.phase ≠ .failed) →
        ∃! i : ℕ, ∃ (r : RegisterRequest) (u : Account), s.registrations[i]? = some r ∧
          normalizedEmail lib r.payload.email = email ∧ r.phase = .created u ∧ u ∈ s.users.rows := by
  have hsound := sound_accounts h
  have hrejected : ∀ r ∈ s.registrations, ∀ e, r.phase = .rejected e →
      e = .emailAlreadyRegistered ∧ ∃ u ∈ s.users.rows, u.email = normalizedEmail lib r.payload.email := by
    intro r hr e hphase
    have hholds := hsound.requests r hr
    rw [RegisterRequest.Holds, hphase] at hholds
    exact hholds
  refine ⟨hsound.emails, hrejected, fun email ⟨r, hr, hemail⟩ hover => ?_⟩
  have htaken : ∃ u ∈ s.users.rows, u.email = email := by
    obtain ⟨hopen, hfailed⟩ := hover r hr hemail
    cases hphase : r.phase with
    | created u =>
      obtain ⟨hu, hmakes⟩ := hsound.created hr hphase
      exact ⟨u, hu, hmakes.email.trans hemail⟩
    | rejected e => exact hemail ▸ (hrejected r hr e hphase).2
    | failed => exact absurd hphase hfailed
    | _ => rw [hphase] at hopen; cases hopen
  obtain ⟨u, hu, hemail'⟩ := htaken
  obtain ⟨q, hq, hphase, hmakes⟩ := hsound.origin u hu
  have hq' : normalizedEmail lib q.payload.email = email := hmakes.email.symm.trans hemail'
  have hcreated : q.phase = .created u := hphase.resolve_right (hover q hq hq').2
  obtain ⟨i, hi⟩ := List.mem_iff_getElem?.1 hq
  refine ⟨i, ⟨q, u, hi, hq', hcreated, hu⟩, ?_⟩
  rintro j ⟨r', v, hj, hr', hphase', hv⟩
  by_contra hne
  have hmakes' := (hsound.created (List.mem_of_getElem? hj) hphase').2
  refine (hsound.distinct j i r' q v u hj hi (by rw [hphase']; rfl) (by rw [hcreated]; rfl) hne).1 ?_
  rw [hmakes'.email, hr', hemail']

/-- Hashes that hide nothing, and tokens that count. -/
def plainAuth : AuthLibraries where
  accessTokenExpireMinutes := 60
  hash := fun password _ => password
  dummySalt := 0
  verify := fun hashed password => if hashed = password then .verified else .verifyMismatch
  encode := fun p =>
    let text := List.replicate ((p.sub.getD "").toList.length) 'a' ++ List.replicate p.iat 'b' ++
      List.replicate p.jti.toList.length 'c'
    String.ofList text
  decode := fun token now =>
    let count (c : Char) := token.toList.count c
    if count 'b' * 1000000 ≤ now ∧ now < (count 'b' + 3600) * 1000000 then
      some
        { sub := some (String.ofList (List.replicate (count 'a') 'u'))
          iat := count 'b'
          exp := count 'b' + 3600
          jti := String.ofList (List.replicate (count 'c') 'u') }
    else none
  uuidText := fun n => String.ofList (List.replicate n 'u')
  uuidOfText := fun text => some text.toList.length

/-- Two registrations for one address get past their SELECTs before either inserts. -/
def bothRegister : List AccountAction :=
  [.register ⟨"ada@lab.io", "first-password", "Ada"⟩, .register ⟨" ada@lab.io", "second-password", "Ada L."⟩,
    .registration 0 .check, .registration 1 .check, .registration 0 (.create 1), .registration 0 (.commit .ok),
    .registration 1 (.create 2)]

theorem one_account_per_address_bothRegister :
    let s := final (accountStep plainLibraries plainAuth) .empty bothRegister
    ∃! i : ℕ, ∃ (r : RegisterRequest) (u : Account), s.registrations[i]? = some r ∧
      normalizedEmail plainLibraries r.payload.email = "ada@lab.io" ∧ r.phase = .created u ∧ u ∈ s.users.rows := by
  refine (one_account_per_address (run_final bothRegister (by decide +kernel))).2.2 "ada@lab.io" ?_ ?_
  · decide +kernel
  · decide +kernel

end

end ApiTesting
