import ApiTesting.Lib.Raises
import ApiTesting.Spec.Services

/-! What the statements of a session do in a session that has not failed. -/

namespace ApiTesting

open Keyed ServiceM Fallible

section
variable {α β : Type} {s : Session} {e : AppError}

theorem query_run (hs : s.failed = false) (f : Database → α) : query f s = (.ok (f s.db), s) := by
  unfold query
  rw [hs]
  rfl

theorem flush_run (hs : s.failed = false) {f : Database → Except Exn Database} {db : Database}
    (hf : f s.db = .ok db) : flush f s = (.ok (), { s with db }) := by
  unfold flush
  rw [hs, hf]
  rfl

theorem flush_raise (hs : s.failed = false) {f : Database → Except Exn Database} {exc : Exn}
    (hf : f s.db = .error exc) : flush f s = (.error exc, { s with failed := true }) := by
  unfold flush
  rw [hs, hf]
  rfl

theorem generateIds_run (count : ℕ) :
    generateIds count s = (.ok s.nextId, { s with nextId := s.nextId + count }) := rfl

theorem now_run : now s = (.ok s.now, s) := rfl

theorem bind_existing {x : Option α} {a : α} (hx : x = some a) (k : α → ServiceM β) :
    existing e x >>= k = k a := by
  rw [hx]
  exact pure_bind a k

/-- A row is read and found. -/
theorem bind_found (hs : s.failed = false) {f : Database → Option α} {a : α} (hf : f s.db = some a)
    (k : α → ServiceM β) : (do let row ← existing e (← query f); k row) s = k a s := by
  rw [bind_of_ok _ (query_run hs f), bind_existing hf]

/-- `m` and then a value of its own. -/
theorem bind_return {m : ServiceM α} {r : Except Exn α} {s' : Session} (h : m s = (r, s')) (b : β) :
    (do let _ ← m; return b) s = (r.map fun _ => b, s') := by
  cases r with
  | ok a => exact bind_of_ok _ h
  | error exc => exact bind_of_error _ h

end

/-! Only `commit` changes what is committed, and a query changes nothing. -/

section
variable {α : Type}

/-- The computation commits nothing. -/
abbrev Uncommitted (m : ServiceM α) : Prop := Keeps Session.committed m

/-- The computation changes nothing. -/
abbrev ReadOnly (m : ServiceM α) : Prop := Keeps id m

theorem readOnly_query (f : Database → α) : ReadOnly (query f) := by
  intro s
  unfold query
  split <;> rfl

theorem readOnly_existing (e : AppError) (x : Option α) : ReadOnly (existing e x) := by
  cases x with
  | none => exact keeps_throw _
  | some a => exact keeps_pure a

theorem ReadOnly.same {m : ServiceM α} {r : Except Exn α} {s s' : Session} (h : ReadOnly m)
    (hrun : m s = (r, s')) : s' = s := by
  have := h s
  rwa [hrun] at this

theorem ReadOnly.uncommitted {m : ServiceM α} (h : ReadOnly m) : Uncommitted m := fun s =>
  congrArg Session.committed (h s)

theorem uncommitted_flush (f : Database → Except Exn Database) : Uncommitted (flush f) := by
  intro s
  unfold flush
  split
  · rfl
  · split <;> rfl

theorem uncommitted_generateIds (count : ℕ) : Uncommitted (generateIds count) := fun _ => rfl

theorem readOnly_now : ReadOnly now := fun _ => rfl

theorem readOnly_listDue (now : Timestamp) (limit : ℕ) : ReadOnly (ScheduleRepository.listDue now limit) :=
  fun s => readOnly_query _ s

theorem uncommitted_callRedis (effect : Stream → Stream) : Uncommitted (callRedis effect) := fun _ => rfl

end

/-- After something was read, the session is as it was, or what the rest makes of it. -/
theorem bind_of_readOnly {α β : Type} {P : Session → Prop} {m : ServiceM α} {k : α → ServiceM β} {s : Session}
    (hm : ReadOnly m) (hs : P s) (hk : ∀ a, m s = (.ok a, s) → P (k a s).2) : P ((m >>= k) s).2 := by
  rcases h : m s with ⟨r, s'⟩
  obtain rfl := hm.same h
  cases r with
  | ok a =>
    rw [bind_of_ok k h]
    exact hk a h
  | error e =>
    rw [bind_of_error k h]
    exact hs

theorem committed_commit (s : Session) :
    (commit s).2.committed = s.committed ∨ (commit s).2.committed = s.db := by
  unfold commit
  split
  · exact .inl rfl
  · cases s.commitCall with
    | raisedBefore => exact .inl rfl
    | _ => exact .inr rfl

/-- What a request did is committed as a whole, or not at all. -/
theorem committed_getDb {α : Type} {m : ServiceM α} {s : Session} (h : KeepsFrom Session.committed m s) :
    (getDb m s).2.committed = s.committed ∨ (getDb m s).2.committed = (m s).2.db := by
  unfold KeepsFrom at h
  rcases hm : m s with ⟨r, s'⟩
  rw [hm] at h
  cases r with
  | error e =>
    rw [getDb, bind_of_error _ hm]
    exact .inl h
  | ok a =>
    rcases hc : commit s' with ⟨r', s''⟩
    rw [getDb, bind_of_ok _ hm, bind_return hc, ← h]
    have := committed_commit s'
    rwa [hc] at this

theorem readOnly_organizationIdForCollection (id : UUID) (e : AppError) :
    ReadOnly (organizationIdForCollection id e) :=
  (readOnly_query _).bind fun c => (readOnly_existing e c).bind fun _ =>
    (readOnly_query _).bind fun p => (readOnly_existing e p).bind fun _ => keeps_pure _

theorem readOnly_requireMembership (organizationId userId : UUID) (roles : Option (List OrganizationRole))
    (e : AppError) : ReadOnly (requireMembership organizationId userId roles e) := by
  refine (readOnly_query _).bind fun m => (readOnly_existing e m).bind fun membership => ?_
  split
  · exact keeps_pure membership
  · exact keeps_throw _

/-! What they did where they returned. -/

section
variable {α : Type} {s : Session}

theorem query_ok {f : Database → α} {a : α} {s' : Session} (h : query f s = (.ok a, s')) : a = f s.db := by
  unfold query at h
  split at h <;> cases h
  rfl

theorem existing_ok {e : AppError} {x : Option α} {a : α} {s' : Session}
    (h : existing e x s = (.ok a, s')) : x = some a := by
  cases x with
  | none => cases h
  | some b =>
    cases h
    rfl

theorem flush_ok {f : Database → Except Exn Database} {u : Unit} {s' : Session} (h : flush f s = (.ok u, s')) :
    ∃ db, f s.db = .ok db ∧ s' = { s with db } := by
  unfold flush at h
  split at h
  · cases h
  · split at h
    · rename_i db hf
      cases h
      exact ⟨db, hf, rfl⟩
    · cases h

/-- A flush writes its statements, or nothing. -/
theorem db_flush_cases (f : Database → Except Exn Database) (s : Session) :
    (flush f s).2.db = s.db ∨ f s.db = .ok (flush f s).2.db := by
  unfold flush
  split
  · exact .inl rfl
  · split
    · exact .inr ‹_›
    · exact .inl rfl

theorem requireMembership_ok {o u : UUID} {roles : Option (List OrganizationRole)} {e : AppError}
    {member : OrganizationMember} {s' : Session}
    (h : requireMembership o u roles e s = (.ok member, s')) :
    s.db.organizationMembers.get? (o, u) = some member ∧ roles.all (fun l => member.role ∈ l) := by
  unfold requireMembership OrganizationMemberRepository.getMembership at h
  obtain ⟨x, s₁, hq, h⟩ := ok_of_bind h
  obtain ⟨row, s₂, hx, h⟩ := ok_of_bind h
  have hrow := existing_ok hx
  rw [query_ok hq] at hrow
  split at h
  · cases h
    exact ⟨hrow, ‹_›⟩
  · cases h

theorem insertRow_ok {ρ κ : Type} [DecidableEq κ] {key : ρ → κ} {t u : Table key} {r : ρ}
    (h : insertRow t r = .ok u) : t.insert? r = some u := by
  unfold insertRow at h
  split at h
  · cases h
    assumption
  · cases h

/-- A flush that writes one table. -/
theorem ok_of_written {γ : Type} {x : Except Exn γ} {put : γ → Database} {db : Database}
    (h : (do let t ← x; return put t) = .ok db) : ∃ t, x = .ok t ∧ db = put t := by
  cases x with
  | error e => cases h
  | ok t =>
    cases h
    exact ⟨t, rfl, rfl⟩

/-- One that checks a constraint first. -/
theorem ok_of_checked {γ : Type} {b : Bool} {x : Except Exn γ} {put : γ → Database} {db : Database}
    (h : (do require b; let t ← x; return put t) = .ok db) : ∃ t, x = .ok t ∧ db = put t := by
  cases b with
  | false => cases h
  | true => exact ok_of_written h

theorem updateRow_ok {ρ κ : Type} [DecidableEq κ] {key : ρ → κ} {t u : Table key} {r : ρ}
    (h : updateRow t r = .ok u) : u = t.set r := by
  unfold updateRow at h
  split at h
  · exact (Except.ok.inj h).symm
  · cases h

theorem deleteRow_ok {ρ κ : Type} [DecidableEq κ] {key : ρ → κ} {t u : Table key} {k : κ}
    (h : deleteRow t k = .ok u) : u = t.erase k := by
  unfold deleteRow at h
  split at h
  · exact (Except.ok.inj h).symm
  · cases h

end

end ApiTesting
