import ApiTesting.Lib.Machine
import ApiTesting.Proofs.Sessions
import ApiTesting.Spec.MemberTransactions

/-! The last owner of an organization. The guard counts the owners and then changes one
of them; what it has counted holds to the COMMIT as long as no other COMMIT changes the
owners in between, and then an organization keeps one. -/

namespace ApiTesting

open Keyed Machine ServiceM Fallible

abbrev MemberKey := UUID × UUID × UUID

/-- Every organization has a member who owns it. -/
def MemberStore.HasOwners (s : MemberStore) : Prop :=
  ∀ o ∈ s.organizations, ∃ r ∈ s.rows.rows, r.organizationId = o ∧ r.role = .owner

/-- The statement makes one of the owners no owner. -/
def MemberWrite.TakesFrom (owners : List MemberKey) : MemberWrite → Prop
  | .insert _ => False
  | .setRole target role => role ≠ .owner ∧ target.key ∈ owners
  | .delete target => target.key ∈ owners

/-- A COMMIT has changed the owners since the transaction's first SELECT. -/
def MemberStore.Disturbed (s : MemberStore) (tx : MemberTransaction) : Prop :=
  tx.organizationId ∈ s.ownerChanges.drop tx.since

/-- Where a COMMIT takes an owner and the owners are not those the transaction has been
looking at, `count_owners` would still let it. -/
def CommitsOnCounted (s : MemberStore) : MemberAction → Prop
  | .commit t call => call.tookEffect = true → ∀ tx w, s.transactions.lookup t = some tx →
      tx.stage = .flushed (some w) → w.TakesFrom (MemberStore.owners s.rows tx.organizationId) →
        s.Disturbed tx → 1 < s.countOwners tx.organizationId
  | _ => True

section
variable {rows : Table MemberRow.key} {o organizationId : UUID} {r target : MemberRow} {k : MemberKey}

/-! The owners of an organization. -/

theorem isOwnerOf_iff : r.isOwnerOf o = true ↔ r.organizationId = o ∧ r.role = .owner := decide_eq_true_iff

theorem nodup_owners (rows : Table MemberRow.key) (o : UUID) : (MemberStore.owners rows o).Nodup :=
  rows.nodup.sublist (List.filter_sublist.map MemberRow.key)

theorem mem_owners : k ∈ MemberStore.owners rows o ↔ ∃ r ∈ rows.rows, r.isOwnerOf o = true ∧ r.key = k := by
  simp [MemberStore.owners, and_assoc]

/-- A row is found among the owners by its key. -/
theorem key_mem_owners (hr : r ∈ rows.rows) : r.key ∈ MemberStore.owners rows o ↔ r.isOwnerOf o = true := by
  rw [mem_owners]
  constructor
  · rintro ⟨q, hq, howner, hkey⟩
    have hsame : rows.get? r.key = some q := Table.get?_eq_some_iff.2 ⟨hq, hkey⟩
    rw [Table.get?_eq_some_iff.2 ⟨hr, rfl⟩] at hsame
    cases hsame
    exact howner
  · intro howner
    exact ⟨r, hr, howner, rfl⟩

theorem length_owners (s : MemberStore) (o : UUID) : (MemberStore.owners s.rows o).length = s.countOwners o := by
  rw [MemberStore.owners, List.length_map, MemberStore.countOwners, List.countP_eq_length_filter]

/-- One of several distinct elements. -/
theorem one_lt_length_iff {α : Type} {l : List α} {a : α} (hnd : l.Nodup) (ha : a ∈ l) :
    1 < l.length ↔ ∃ b ∈ l, b ≠ a := by
  obtain ⟨pre, post, rfl⟩ := List.append_of_mem ha
  rw [List.nodup_append, List.nodup_cons] at hnd
  constructor
  · intro hlt
    cases pre with
    | nil =>
      cases post with
      | nil => simp at hlt
      | cons b post => exact ⟨b, by simp, fun hb => hnd.2.1.1 (hb ▸ List.mem_cons_self)⟩
    | cons b pre => exact ⟨b, by simp, hnd.2.2 b List.mem_cons_self a List.mem_cons_self⟩
  · rintro ⟨b, hb, hne⟩
    rw [List.length_append, List.length_cons]
    rcases List.mem_append.1 hb with hb | hb
    · have := List.length_pos_of_mem hb
      omega
    · have := List.length_pos_of_mem ((List.mem_cons.1 hb).resolve_left hne)
      omega

theorem organizationId_of_key {q : MemberRow} (h : q.key = r.key) : q.organizationId = r.organizationId :=
  congrArg (fun k : MemberKey => k.2.1) h

/-! What the statements of another organization leave. -/

theorem owners_erase_ne (h : target.organizationId ≠ o) :
    MemberStore.owners (rows.erase target.key) o = MemberStore.owners rows o := by
  unfold MemberStore.owners Table.erase Table.filter
  rw [List.filter_filter]
  congr 1
  refine List.filter_congr fun r _ => ?_
  by_cases howner : r.isOwnerOf o = true
  · have hne : r.key ≠ target.key := by
      intro hkey
      rw [organizationId_of_key hkey.symm] at h
      exact h (isOwnerOf_iff.1 howner).1
    simp [howner, hne]
  · simp [howner]

/-- Rows that are changed and stay as much of an owner as they were. -/
theorem owners_map {l : List MemberRow} {f : MemberRow → MemberRow} (hkey : ∀ r ∈ l, (f r).key = r.key)
    (howner : ∀ r ∈ l, (f r).isOwnerOf o = r.isOwnerOf o) :
    (((l.map f).filter fun r => r.isOwnerOf o).map MemberRow.key) =
      (l.filter fun r => r.isOwnerOf o).map MemberRow.key := by
  induction l with
  | nil => rfl
  | cons r l ih =>
    have hrest := ih (fun q hq => hkey q (List.mem_cons_of_mem _ hq)) fun q hq => howner q (List.mem_cons_of_mem _ hq)
    rw [List.map_cons, List.filter_cons, List.filter_cons, howner r List.mem_cons_self]
    split
    · rw [List.map_cons, List.map_cons, hrest, hkey r List.mem_cons_self]
    · exact hrest

theorem owners_modify_ne {role : OrganizationRole} (h : target.organizationId ≠ o) :
    MemberStore.owners (rows.modify target.key fun r => { r with role }) o = MemberStore.owners rows o := by
  refine owners_map (fun r _ => ?_) fun r _ => ?_
  · split <;> rfl
  · split
    · rename_i hkey
      have hne : r.organizationId ≠ o := organizationId_of_key hkey ▸ h
      simp [MemberRow.isOwnerOf, hne]
    · rfl

theorem owners_insert_ne {u : Table MemberRow.key} (hu : rows.insert? r = some u) (h : r.organizationId ≠ o) :
    MemberStore.owners u o = MemberStore.owners rows o := by
  unfold MemberStore.owners
  rw [(Table.rows_insert? hu).1, List.filter_append]
  simp [MemberRow.isOwnerOf, h]

theorem owners_set_ne (h : r.organizationId ≠ o) :
    MemberStore.owners (rows.set r) o = MemberStore.owners rows o := by
  by_cases hmem : r.key ∈ rows.keys
  · have hrows : (rows.set r).rows = rows.rows.map fun q => if q.key = r.key then r else q := by
      simp [Table.set, hmem]
    unfold MemberStore.owners
    rw [hrows]
    refine owners_map (fun q _ => ?_) fun q _ => ?_
    · split
      · rename_i hkey
        exact hkey.symm
      · rfl
    · split
      · rename_i hkey
        have hne : q.organizationId ≠ o := organizationId_of_key hkey ▸ h
        simp [MemberRow.isOwnerOf, hne, h]
      · rfl
  · have hu : rows.insert? r = some (rows.set r) := by simp [Table.insert?, Table.set, hmem]
    exact owners_insert_ne hu h

end

/-! What a COMMIT leaves of the owners. -/

/-- The organization the statement is about. -/
def MemberWrite.organizationId : MemberWrite → UUID
  | .insert row => row.organizationId
  | .setRole target _ => target.organizationId
  | .delete target => target.organizationId

section
variable {s s' : MemberStore} {w : MemberWrite} {o : UUID} {tx : MemberTransaction}

theorem owners_committed_ne (h : w.organizationId ≠ o) :
    MemberStore.owners (s.committed (some w)) o = MemberStore.owners s.rows o := by
  cases w with
  | insert row =>
    change MemberStore.owners ((s.rows.insert? row).getD s.rows) o = _
    cases hu : s.rows.insert? row with
    | none => rfl
    | some u => exact owners_insert_ne hu h
  | setRole target role => exact owners_modify_ne h
  | delete target => exact owners_erase_ne h

theorem mem_setRole {rows : Table MemberRow.key} {target q : MemberRow} {role : OrganizationRole} :
    q ∈ (rows.modify target.key fun r => { r with role }).rows ↔
      ∃ r ∈ rows.rows, q = if r.key = target.key then { r with role } else r := by
  refine List.mem_map.trans (exists_congr fun r => and_congr_right fun _ => eq_comm)

/-- Where nobody is taken from the owners, an owner is left. -/
theorem owner_left (h : ¬ w.TakesFrom (MemberStore.owners s.rows o)) {r : MemberRow} (hr : r ∈ s.rows.rows)
    (howner : r.isOwnerOf o = true) : ∃ q ∈ (s.committed (some w)).rows, q.isOwnerOf o = true := by
  have hkey : r.key ∈ MemberStore.owners s.rows o := (key_mem_owners hr).2 howner
  cases w with
  | insert row =>
    change ∃ q ∈ ((s.rows.insert? row).getD s.rows).rows, _
    cases hu : s.rows.insert? row with
    | none => exact ⟨r, hr, howner⟩
    | some u =>
      refine ⟨r, ?_, howner⟩
      change r ∈ u.rows
      rw [(Table.rows_insert? hu).1]
      exact List.mem_append_left _ hr
  | setRole target role =>
    refine ⟨_, mem_setRole.2 ⟨r, hr, rfl⟩, ?_⟩
    split
    · rename_i htarget
      have hrole : role = .owner := by
        by_contra hne
        exact h ⟨hne, htarget ▸ hkey⟩
      exact isOwnerOf_iff.2 ⟨(isOwnerOf_iff.1 howner).1, hrole⟩
    · exact howner
  | delete target =>
    refine ⟨r, Table.mem_filter.2 ⟨hr, ?_⟩, howner⟩
    simp only [ne_eq, decide_not, Bool.not_eq_true', decide_eq_false_iff_not]
    exact fun htarget => h (htarget ▸ hkey : target.key ∈ MemberStore.owners s.rows o)

/-- Where one of the owners is taken, an owner is left if there was another. -/
theorem owner_left_iff (h : w.TakesFrom (MemberStore.owners s.rows o)) :
    (∃ q ∈ (s.committed (some w)).rows, q.isOwnerOf o = true) ↔ 1 < s.countOwners o := by
  have hcount : ∀ k ∈ MemberStore.owners s.rows o,
      ((∃ r ∈ s.rows.rows, r.isOwnerOf o = true ∧ r.key ≠ k) ↔ 1 < s.countOwners o) := by
    intro k hk
    rw [← length_owners, one_lt_length_iff (nodup_owners s.rows o) hk]
    constructor
    · rintro ⟨r, hr, howner, hne⟩
      exact ⟨r.key, (key_mem_owners hr).2 howner, hne⟩
    · rintro ⟨b, hb, hne⟩
      obtain ⟨r, hr, howner, rfl⟩ := mem_owners.1 hb
      exact ⟨r, hr, howner, hne⟩
  cases w with
  | insert row => exact absurd h id
  | setRole target role =>
    rw [← hcount target.key h.2]
    constructor
    · rintro ⟨q, hq, howner⟩
      obtain ⟨r, hr, rfl⟩ := mem_setRole.1 hq
      split at howner
      · exact absurd (isOwnerOf_iff.1 howner).2 h.1
      · exact ⟨r, hr, howner, ‹_›⟩
    · rintro ⟨r, hr, howner, hne⟩
      exact ⟨r, mem_setRole.2 ⟨r, hr, (if_neg hne).symm⟩, howner⟩
  | delete target =>
    rw [← hcount target.key h]
    constructor
    · rintro ⟨q, hq, howner⟩
      obtain ⟨hq, hne⟩ := Table.mem_filter.1 hq
      exact ⟨q, hq, howner, of_decide_eq_true hne⟩
    · rintro ⟨r, hr, howner, hne⟩
      exact ⟨r, Table.mem_filter.2 ⟨hr, decide_eq_true hne⟩, howner⟩

/-! What a transaction knows. -/

/-- The row is among the owners if and only if that is the role it was loaded with. -/
def MemberRow.Agrees (owners : List MemberKey) (r : MemberRow) : Prop := r.key ∈ owners ↔ r.role = .owner

/-- What it has loaded and counted is still so. -/
def MemberTransaction.Faithful (owners : List MemberKey) (tx : MemberTransaction) : Prop :=
  match tx.stage with
  | .authorized caller => caller.Agrees owners
  | .found target => target.Agrees owners
  | .counted target =>
    target.Agrees owners ∧ (tx.request.countsOwners target.role = true → 1 < owners.length)
  | .flushed (some w) => w.TakesFrom owners → 1 < owners.length
  | _ => True

/-- What it has in hand is of its organization. -/
def MemberTransaction.Placed (tx : MemberTransaction) : Prop :=
  match tx.stage with
  | .authorized caller => caller.organizationId = tx.organizationId
  | .found target => target.organizationId = tx.organizationId
  | .counted target => target.organizationId = tx.organizationId
  | .flushed (some w) => w.organizationId = tx.organizationId
  | _ => True

structure MemberTransaction.Sound (s : MemberStore) (tx : MemberTransaction) : Prop where
  placed : tx.Placed
  parent : ∀ row, tx.stage = .flushed (some (.insert row)) → row.organizationId ∈ s.organizations
  since : tx.since ≤ s.ownerChanges.length
  faithful : ¬ s.Disturbed tx → tx.Faithful (MemberStore.owners s.rows tx.organizationId)

structure MemberStore.Sound (s : MemberStore) : Prop where
  members : ∀ r ∈ s.rows.rows, r.organizationId ∈ s.organizations
  transactions : ∀ t tx, s.transactions.lookup t = some tx → tx.Sound s

/-- A transaction is as sound as it was where the owners have not changed or that was noted. -/
theorem MemberTransaction.Sound.transfer (h : tx.Sound s) (horgs : s.organizations ⊆ s'.organizations)
    (hchanges : s.ownerChanges <+: s'.ownerChanges)
    (howners : s'.Disturbed tx ∨ MemberStore.owners s'.rows tx.organizationId =
      MemberStore.owners s.rows tx.organizationId) : tx.Sound s' where
  placed := h.placed
  parent := fun row hrow => horgs (h.parent row hrow)
  since := h.since.trans hchanges.length_le
  faithful := by
    intro hnot
    rcases howners with hyes | hsame
    · exact absurd hyes hnot
    · rw [hsame]
      refine h.faithful fun hd => hnot ?_
      obtain ⟨l, hl⟩ := hchanges
      unfold MemberStore.Disturbed
      rw [← hl, List.drop_append_of_le_length h.since]
      exact List.mem_append_left l hd

/-- The store may change as long as the transactions that are left stay sound. -/
theorem MemberStore.Sound.put (h : s.Sound) (htx : tx.Sound s) (t : ℕ) : (s.put t tx).Sound where
  members := h.members
  transactions := by
    intro u q hq
    rw [MemberStore.put, Dict.lookup_put] at hq
    split at hq
    · cases hq
      exact htx.transfer (List.Subset.refl _) List.prefix_rfl (.inr rfl)
    · exact (h.transactions u q hq).transfer (List.Subset.refl _) List.prefix_rfl (.inr rfl)

theorem MemberStore.Sound.close (h : s.Sound) (t : ℕ) : (s.close t).Sound where
  members := h.members
  transactions := by
    intro u q hq
    rw [MemberStore.close, Dict.lookup_erase] at hq
    split at hq
    · cases hq
    · exact (h.transactions u q hq).transfer (List.Subset.refl _) List.prefix_rfl (.inr rfl)

theorem membership_mem {organizationId userId : UUID} {r : MemberRow}
    (h : s.membership organizationId userId = some r) :
    r ∈ s.rows.rows ∧ r.organizationId = organizationId := by
  unfold MemberStore.membership at h
  have hfound := List.find?_some h
  rw [decide_eq_true_eq] at hfound
  exact ⟨List.mem_of_find?_eq_some h, hfound.1⟩

/-- A row that has just been read. -/
theorem agrees_of_mem {r : MemberRow} (hr : r ∈ s.rows.rows) (ho : r.organizationId = o) :
    r.Agrees (MemberStore.owners s.rows o) := by
  unfold MemberRow.Agrees
  rw [key_mem_owners hr, isOwnerOf_iff]
  exact and_iff_right ho

/-- A transaction that has just made its first SELECT has not been disturbed. -/
theorem sound_read {t : ℕ} (h : s.Sound) (htx : tx.Sound s) (hstep : s.read t tx = some s') : s'.Sound := by
  obtain ⟨organizationId, currentUserId, request, stage, since⟩ := tx
  cases stage with
  | entered =>
    simp only [MemberStore.read] at hstep
    split at hstep
    · cases hstep
      exact h.close t
    · rename_i caller hcaller
      obtain ⟨hmem, horg⟩ := membership_mem hcaller
      have hnew : ∀ stage, stage = .found caller ∨ stage = .authorized caller → MemberTransaction.Sound s
          ⟨organizationId, currentUserId, request, stage, s.ownerChanges.length⟩ := by
        rintro stage (rfl | rfl) <;> exact
          { placed := horg
            parent := by rintro row ⟨⟩
            since := Nat.le_refl _
            faithful := fun _ => agrees_of_mem hmem horg }
      split at hstep
      · cases hstep
        split
        · exact h.put (hnew _ (.inl rfl)) t
        · exact h.put (hnew _ (.inr rfl)) t
      · cases hstep
        exact h.close t
  | authorized caller =>
    have hvacant : ∀ request, MemberTransaction.Sound s
        ⟨organizationId, currentUserId, request, .vacant, since⟩ := fun request =>
      { placed := trivial
        parent := by rintro row ⟨⟩
        since := htx.since
        faithful := fun _ => trivial }
    have hfound : ∀ request row userId, s.membership organizationId userId = some row →
        MemberTransaction.Sound s ⟨organizationId, currentUserId, request,
          .found (if row.key = caller.key then caller else row), since⟩ := by
      intro request row userId hrow
      obtain ⟨hmem, horg⟩ := membership_mem hrow
      have hcaller : caller.organizationId = organizationId := htx.placed
      refine ⟨?_, by rintro row ⟨⟩, htx.since, fun hnot => ?_⟩
      · unfold MemberTransaction.Placed
        dsimp only
        split
        · exact hcaller
        · exact horg
      · unfold MemberTransaction.Faithful
        dsimp only
        split
        · exact htx.faithful hnot
        · exact agrees_of_mem hmem horg
    simp only [MemberStore.read] at hstep
    split at hstep
    · cases hstep
      exact h.put (hvacant _) t
    · cases hstep
      exact h.close t
    · cases hstep
      exact h.close t
    · rename_i hrow
      cases hstep
      exact h.put (hfound _ _ _ hrow) t
  | found target =>
    simp only [MemberStore.read] at hstep
    split at hstep
    · cases hstep
      exact h.close t
    · rename_i hcount
      cases hstep
      have hnew : MemberTransaction.Sound s
          ⟨organizationId, currentUserId, request, .counted target, since⟩ :=
        { placed := htx.placed
          parent := by rintro row ⟨⟩
          since := htx.since
          faithful := fun hnot => ⟨htx.faithful hnot, fun hguard => by
            dsimp only
            rw [length_owners]
            exact Nat.lt_of_not_le fun hle => hcount ⟨hguard, hle⟩⟩ }
      exact h.put hnew t
  | counted target => cases hstep
  | vacant => cases hstep
  | flushed write => cases hstep

theorem sound_flush {t : ℕ} (h : s.Sound) (htx : tx.Sound s) (hstep : s.flush t tx = some s') : s'.Sound := by
  obtain ⟨organizationId, currentUserId, request, stage, since⟩ := tx
  have hunsent : ∀ request, MemberTransaction.Sound s
      ⟨organizationId, currentUserId, request, .flushed none, since⟩ := fun request =>
    { placed := trivial
      parent := by rintro row ⟨⟩
      since := htx.since
      faithful := fun _ => trivial }
  cases stage with
  | counted target =>
    cases request with
    | add userId role => cases hstep
    | updateRole targetUserId role =>
      simp only [MemberStore.flush] at hstep
      split at hstep
      · cases hstep
        exact h.put (hunsent _) t
      · split at hstep
        · cases hstep
        · split at hstep
          · cases hstep
            have hnew : MemberTransaction.Sound s ⟨organizationId, currentUserId,
                .updateRole targetUserId role, .flushed (some (.setRole target role)), since⟩ :=
              { placed := htx.placed
                parent := by rintro row ⟨⟩
                since := htx.since
                faithful := fun hnot htakes => by
                  obtain ⟨hagrees, hguard⟩ := htx.faithful hnot
                  exact hguard (decide_eq_true ⟨hagrees.1 htakes.2, htakes.1⟩) }
            exact h.put hnew t
          · cases hstep
            exact h.close t
    | remove targetUserId =>
      simp only [MemberStore.flush] at hstep
      split at hstep
      · cases hstep
      · split at hstep
        · cases hstep
          have hnew : MemberTransaction.Sound s ⟨organizationId, currentUserId,
              .remove targetUserId, .flushed (some (.delete target)), since⟩ :=
            { placed := htx.placed
              parent := by rintro row ⟨⟩
              since := htx.since
              faithful := fun hnot htakes => by
                obtain ⟨hagrees, hguard⟩ := htx.faithful hnot
                exact hguard (decide_eq_true (hagrees.1 htakes)) }
          exact h.put hnew t
        · cases hstep
          exact h.put (hunsent _) t
  | vacant =>
    cases request with
    | add userId role =>
      simp only [MemberStore.flush] at hstep
      split at hstep
      · cases hstep
      · split at hstep
        · cases hstep
          exact h.close t
        · rename_i hfree
          cases hstep
          have hnew : MemberTransaction.Sound s ⟨organizationId, currentUserId, .add userId role,
              .flushed (some (.insert ⟨s.nextId, organizationId, userId, role⟩)), since⟩ :=
            { placed := rfl
              parent := fun row hrow => by
                cases hrow
                exact Classical.not_not.1 fun hno => hfree (.inr hno)
              since := htx.since
              faithful := fun _ htakes => absurd htakes id }
          have hnext : MemberStore.Sound { s with nextId := s.nextId + 1 } :=
            ⟨h.members, fun u q hq => (h.transactions u q hq).transfer (List.Subset.refl _)
              List.prefix_rfl (.inr rfl)⟩
          exact hnext.put (hnew.transfer (List.Subset.refl _) List.prefix_rfl (.inr rfl)) t
    | updateRole targetUserId role => cases hstep
    | remove targetUserId => cases hstep
  | entered => cases hstep
  | authorized caller => cases hstep
  | found target => cases hstep
  | flushed write => cases hstep

theorem members_committed (h : s.Sound) (htx : tx.Sound s) {write : Option MemberWrite}
    (hstage : tx.stage = .flushed write) : ∀ r ∈ (s.committed write).rows, r.organizationId ∈ s.organizations := by
  intro r hr
  cases write with
  | none => exact h.members r hr
  | some w =>
    cases w with
    | insert row =>
      change r ∈ ((s.rows.insert? row).getD s.rows).rows at hr
      cases hu : s.rows.insert? row with
      | none =>
        rw [hu] at hr
        exact h.members r hr
      | some u =>
        rw [hu] at hr
        change r ∈ u.rows at hr
        rw [(Table.rows_insert? hu).1, List.mem_append, List.mem_singleton] at hr
        rcases hr with hr | rfl
        · exact h.members r hr
        · exact htx.parent r hstage
    | setRole target role =>
      obtain ⟨q, hq, rfl⟩ := mem_setRole.1 hr
      split <;> exact h.members q hq
    | delete target => exact h.members r (Table.mem_filter.1 hr).1

theorem sound_commit {t : ℕ} (h : s.Sound) (htx : tx.Sound s) {write : Option MemberWrite}
    (hstage : tx.stage = .flushed write) : (s.commit t tx write).Sound where
  members := members_committed h htx hstage
  transactions := by
    intro u q hq
    have hother : s.transactions.lookup u = some q := by
      change (s.close t).transactions.lookup u = some q at hq
      rw [MemberStore.close, Dict.lookup_erase] at hq
      split at hq
      · cases hq
      · exact hq
    have hsound := h.transactions u q hother
    refine hsound.transfer (List.Subset.refl _) ?_ ?_
    · change s.ownerChanges <+: if _ then _ else _
      split
      · exact List.prefix_rfl
      · exact List.prefix_append _ _
    · by_cases hsame : MemberStore.owners (s.committed write) q.organizationId =
        MemberStore.owners s.rows q.organizationId
      · exact .inr hsame
      · -- only the organization of the transaction can have lost or gained an owner
        have horg : q.organizationId = tx.organizationId := by
          by_contra hne
          cases write with
          | none => exact hsame rfl
          | some w =>
            have hplaced := htx.placed
            unfold MemberTransaction.Placed at hplaced
            rw [hstage] at hplaced
            exact hsame (owners_committed_ne fun hw => hne (hw.symm.trans hplaced))
        refine .inl ?_
        unfold MemberStore.Disturbed MemberStore.commit
        rw [horg] at hsame ⊢
        dsimp only
        rw [if_neg hsame, List.drop_append_of_le_length hsound.since]
        exact List.mem_append_right _ List.mem_cons_self

theorem sound_createOrganization {creatorId : UUID} (h : s.Sound)
    (hstep : s.createOrganization o creatorId = some s') : s'.Sound := by
  unfold MemberStore.createOrganization at hstep
  split at hstep
  · cases hstep
  · cases hstep
    refine ⟨fun r hr => ?_, fun u q hq => ?_⟩
    · rcases Table.mem_rows_set hr with rfl | hr
      · exact List.mem_append_right _ List.mem_cons_self
      · exact List.mem_append_left _ (h.members r hr)
    · have hsound := h.transactions u q hq
      refine hsound.transfer (List.subset_append_left _ _) (List.prefix_append _ _) ?_
      by_cases ho : o = q.organizationId
      · refine .inl ?_
        unfold MemberStore.Disturbed
        dsimp only
        rw [List.drop_append_of_le_length hsound.since, ho]
        exact List.mem_append_right _ List.mem_cons_self
      · exact .inr (owners_set_ne ho)

theorem sound_step_members {a : MemberAction} (h : s.Sound) (hstep : s.step a = some s') : s'.Sound := by
  cases a with
  | createOrganization organizationId creatorId => exact sound_createOrganization h hstep
  | begin t organizationId currentUserId request =>
    simp only [MemberStore.step] at hstep
    split at hstep
    · cases hstep
    · cases hstep
      have hnew : MemberTransaction.Sound s ⟨organizationId, currentUserId, request, .entered, 0⟩ :=
        { placed := trivial
          parent := by rintro row ⟨⟩
          since := Nat.zero_le _
          faithful := fun _ => trivial }
      exact h.put hnew t
  | read t =>
    simp only [MemberStore.step] at hstep
    split at hstep
    · rename_i tx htx
      exact sound_read h (h.transactions t tx htx) hstep
    · cases hstep
  | flush t =>
    simp only [MemberStore.step] at hstep
    split at hstep
    · rename_i tx htx
      exact sound_flush h (h.transactions t tx htx) hstep
    · cases hstep
  | commit t call =>
    simp only [MemberStore.step] at hstep
    split at hstep
    · rename_i tx htx
      split at hstep
      · rename_i write hstage
        cases hstep
        split
        · exact sound_commit h (h.transactions t tx htx) hstage
        · exact h.close t
      · cases hstep
    · cases hstep
  | rollback t =>
    simp only [MemberStore.step] at hstep
    split at hstep
    · cases hstep
      exact h.close t
    · cases hstep

/-! What a step does to the owners. -/

theorem hasOwners_iff :
    s.HasOwners ↔ ∀ o ∈ s.organizations, ∃ r ∈ s.rows.rows, r.isOwnerOf o = true := by
  unfold MemberStore.HasOwners
  simp only [isOwnerOf_iff]

theorem exists_of_takesFrom {owners : List MemberKey} (h : w.TakesFrom owners) : ∃ k, k ∈ owners := by
  cases w with
  | insert row => exact absurd h id
  | setRole target role => exact ⟨_, h.2⟩
  | delete target => exact ⟨_, h⟩

/-- A COMMIT leaves every organization an owner exactly where it does not take the last one. -/
theorem hasOwners_commit_iff {t : ℕ} {write : Option MemberWrite} (h : s.Sound) (hall : s.HasOwners)
    (hplaced : ∀ w, write = some w → w.organizationId = tx.organizationId) :
    (s.commit t tx write).HasOwners ↔
      ∀ w, write = some w → w.TakesFrom (MemberStore.owners s.rows tx.organizationId) →
        1 < s.countOwners tx.organizationId := by
  rw [hasOwners_iff] at hall
  rw [hasOwners_iff]
  change (∀ o ∈ s.organizations, ∃ r ∈ (s.committed write).rows, r.isOwnerOf o = true) ↔ _
  constructor
  · rintro hafter w rfl htakes
    obtain ⟨k, hk⟩ := exists_of_takesFrom htakes
    obtain ⟨r, hr, howner, -⟩ := mem_owners.1 hk
    have hexists := h.members r hr
    rw [(isOwnerOf_iff.1 howner).1] at hexists
    exact (owner_left_iff htakes).1 (hafter _ hexists)
  · intro hcond o ho
    obtain ⟨r, hr, howner⟩ := hall o ho
    cases write with
    | none => exact ⟨r, hr, howner⟩
    | some w =>
      by_cases horg : w.organizationId = o
      · have ho' : o = tx.organizationId := horg.symm.trans (hplaced w rfl)
        by_cases htakes : w.TakesFrom (MemberStore.owners s.rows o)
        · refine (owner_left_iff htakes).2 ?_
          rw [ho'] at htakes ⊢
          exact hcond w rfl htakes
        · exact owner_left htakes hr howner
      · have hk := (key_mem_owners (o := o) hr).2 howner
        rw [← owners_committed_ne horg] at hk
        obtain ⟨q, hq, hqowner, -⟩ := mem_owners.1 hk
        exact ⟨q, hq, hqowner⟩

/-- What it has counted is enough as long as it is undisturbed. -/
theorem one_lt_of_not_disturbed (htx : tx.Sound s) (hstage : tx.stage = .flushed (some w))
    (htakes : w.TakesFrom (MemberStore.owners s.rows tx.organizationId)) (hnot : ¬ s.Disturbed tx) :
    1 < s.countOwners tx.organizationId := by
  have hfaithful := htx.faithful hnot
  unfold MemberTransaction.Faithful at hfaithful
  rw [hstage] at hfaithful
  rw [← length_owners]
  exact hfaithful htakes

theorem placed_of_flushed (htx : tx.Sound s) (hstage : tx.stage = .flushed (some w)) :
    w.organizationId = tx.organizationId := by
  have hplaced := htx.placed
  unfold MemberTransaction.Placed at hplaced
  rw [hstage] at hplaced
  exact hplaced

theorem hasOwners_createOrganization {creatorId : UUID} (hall : s.HasOwners)
    (hstep : s.createOrganization o creatorId = some s') : s'.HasOwners := by
  unfold MemberStore.createOrganization at hstep
  split at hstep
  · cases hstep
  · rename_i hnew
    cases hstep
    rw [hasOwners_iff] at hall ⊢
    intro p hp
    have hcreator : MemberRow.key ⟨s.nextId, o, creatorId, .owner⟩ ∈
        MemberStore.owners (s.rows.set ⟨s.nextId, o, creatorId, .owner⟩) o := by
      refine mem_owners.2 ⟨_, (Table.get?_eq_some_iff.1 ((Table.get?_set _ _ _).trans (if_pos rfl))).1, ?_, rfl⟩
      exact isOwnerOf_iff.2 ⟨rfl, rfl⟩
    rcases List.mem_append.1 hp with hp | hp
    · obtain ⟨r, hr, howner⟩ := hall p hp
      have hne : o ≠ p := fun heq => hnew (heq ▸ hp)
      have hk := (key_mem_owners (o := p) hr).2 howner
      rw [← owners_set_ne (r := ⟨s.nextId, o, creatorId, .owner⟩) hne] at hk
      obtain ⟨q, hq, hqowner, -⟩ := mem_owners.1 hk
      exact ⟨q, hq, hqowner⟩
    · obtain rfl := List.mem_singleton.1 hp
      obtain ⟨q, hq, hqowner, -⟩ := mem_owners.1 hcreator
      exact ⟨q, hq, hqowner⟩

/-- Neither a SELECT nor a flush changes what is committed. -/
theorem same_read {t : ℕ} (hstep : s.read t tx = some s') :
    s'.organizations = s.organizations ∧ s'.rows = s.rows := by
  unfold MemberStore.read at hstep
  split at hstep
  · split at hstep
    · cases hstep
      exact ⟨rfl, rfl⟩
    · split at hstep <;> cases hstep <;> exact ⟨rfl, rfl⟩
  · split at hstep <;> cases hstep <;> exact ⟨rfl, rfl⟩
  · split at hstep <;> cases hstep <;> exact ⟨rfl, rfl⟩
  · cases hstep

theorem same_flush {t : ℕ} (hstep : s.flush t tx = some s') :
    s'.organizations = s.organizations ∧ s'.rows = s.rows := by
  unfold MemberStore.flush at hstep
  split at hstep
  · split at hstep
    · cases hstep
      exact ⟨rfl, rfl⟩
    · split at hstep
      · cases hstep
      · split at hstep <;> cases hstep <;> exact ⟨rfl, rfl⟩
  · split at hstep
    · cases hstep
    · split at hstep <;> cases hstep <;> exact ⟨rfl, rfl⟩
  · split at hstep
    · cases hstep
    · split at hstep <;> cases hstep <;> exact ⟨rfl, rfl⟩
  · cases hstep

theorem hasOwners_congr (h : s'.organizations = s.organizations ∧ s'.rows = s.rows) :
    s'.HasOwners ↔ s.HasOwners := by
  unfold MemberStore.HasOwners
  rw [h.1, h.2]

/-- A step keeps an owner for every organization exactly where it is no COMMIT that takes
the last one after the owners have changed under it. -/
theorem hasOwners_step_iff {a : MemberAction} (h : s.Sound) (hall : s.HasOwners) (hstep : s.step a = some s') :
    s'.HasOwners ↔ CommitsOnCounted s a := by
  cases a with
  | createOrganization organizationId creatorId =>
    exact iff_of_true (hasOwners_createOrganization hall hstep) trivial
  | begin t organizationId currentUserId request =>
    simp only [MemberStore.step] at hstep
    split at hstep <;> cases hstep
    exact iff_of_true hall trivial
  | read t =>
    simp only [MemberStore.step] at hstep
    split at hstep
    · exact iff_of_true ((hasOwners_congr (same_read hstep)).2 hall) trivial
    · cases hstep
  | flush t =>
    simp only [MemberStore.step] at hstep
    split at hstep
    · exact iff_of_true ((hasOwners_congr (same_flush hstep)).2 hall) trivial
    · cases hstep
  | rollback t =>
    simp only [MemberStore.step] at hstep
    split at hstep <;> cases hstep
    exact iff_of_true hall trivial
  | commit t call =>
    simp only [MemberStore.step] at hstep
    split at hstep
    · rename_i tx htx
      have hsound := h.transactions t tx htx
      split at hstep
      · rename_i write hstage
        cases hstep
        unfold CommitsOnCounted
        cases hcall : call.tookEffect with
        | false => exact iff_of_true hall fun htook => absurd (hcall.symm.trans htook) Bool.false_ne_true
        | true =>
          have hplaced : ∀ w, write = some w → w.organizationId = tx.organizationId := by
            rintro w rfl
            exact placed_of_flushed hsound hstage
          rw [if_pos rfl, hasOwners_commit_iff h hall hplaced]
          constructor
          · intro hcond _ q w hq hqstage htakes _
            rw [htx] at hq
            cases hq
            rw [hstage] at hqstage
            cases hqstage
            exact hcond w rfl htakes
          · rintro hcond w rfl htakes
            by_cases hd : s.Disturbed tx
            · exact hcond hcall tx w htx hstage htakes hd
            · exact one_lt_of_not_disturbed hsound hstage htakes hd
      · cases hstep
    · cases hstep

theorem always_hasOwners_iff {as : List MemberAction} {s₀ : MemberStore} (h₀ : s₀.Sound) (hall : s₀.HasOwners)
    (hrun : Run MemberStore.step s₀ as s) :
    Always MemberStore.step MemberStore.HasOwners s₀ as ↔ Each MemberStore.step CommitsOnCounted s₀ as := by
  refine hrun.always_iff_each hall h₀ ?_ ?_
  · intro s a s' _ hsound hstep
    exact sound_step_members hsound hstep
  · intro s a s' hall hsound hstep
    exact hasOwners_step_iff hsound hall hstep

end

/-! The checks of the machine are those of the services. -/

section
variable {currentUser : User} {organizationId targetUserId : UUID} {role : OrganizationRole} {s s' : Session}

def Database.ownerCount (db : Database) (organizationId : UUID) : ℕ :=
  db.organizationMembers.rows.countP fun m => m.organizationId = organizationId ∧ m.role = .owner

/-- Past the guard, if it is asked for, there is more than one owner. -/
theorem keepOwner_ok {α : Type} {c : Prop} [Decidable c] {k : Unit → ServiceM α} {a : α}
    (h : (if c then do let u ← OrganizationService.keepOwner organizationId; k u else k () : ServiceM α) s =
      (.ok a, s')) :
    (c → 1 < s.db.ownerCount organizationId) ∧ k () s = (.ok a, s') := by
  split at h
  · obtain ⟨u, s₁, hkeep, hrest⟩ := ok_of_bind h
    unfold OrganizationService.keepOwner OrganizationMemberRepository.countOwners at hkeep
    obtain ⟨n, s₂, hquery, hguard⟩ := ok_of_bind hkeep
    have hn := query_ok hquery
    rw [(readOnly_query _).same hquery] at hguard
    split at hguard
    · cases hguard
    · rename_i hmany
      cases hguard
      rw [hn] at hmany
      exact ⟨fun _ => Nat.lt_of_not_le hmany, hrest⟩
  · rename_i hnot
    exact ⟨fun hc => absurd hc hnot, h⟩

theorem updateMemberRole_ok {member : OrganizationMember}
    (h : OrganizationService.updateMemberRole currentUser organizationId targetUserId role s =
      (.ok member, s')) :
    ∃ caller target, s.db.organizationMembers.get? (organizationId, currentUser.id) = some caller ∧
      (MemberRequest.updateRole targetUserId role).mayAct currentUser.id caller.role = true ∧
      s.db.organizationMembers.get? (organizationId, targetUserId) = some target ∧
      ((MemberRequest.updateRole targetUserId role).countsOwners target.role = true →
        1 < s.db.ownerCount organizationId) ∧
      s'.db.organizationMembers = s.db.organizationMembers.set { target with role } := by
  unfold OrganizationService.updateMemberRole OrganizationMemberRepository.getMembership at h
  obtain ⟨caller, s₁, hcaller, hfind⟩ := ok_of_bind h
  obtain ⟨hrow, hrole⟩ := requireMembership_ok hcaller
  rw [(readOnly_requireMembership _ _ _ _).same hcaller] at hfind
  obtain ⟨x, s₂, hquery, hexists⟩ := ok_of_bind hfind
  rw [(readOnly_query _).same hquery] at hexists
  obtain ⟨target, s₃, htarget, hguard⟩ := ok_of_bind hexists
  rw [(readOnly_existing _ _).same htarget] at hguard
  have hx := existing_ok htarget
  rw [query_ok hquery] at hx
  dsimp only at hguard
  obtain ⟨hcount, hwrite⟩ := keepOwner_ok hguard
  obtain ⟨u, s₄, hflush, hret⟩ := ok_of_bind hwrite
  obtain ⟨db, hdb, rfl⟩ := flush_ok hflush
  obtain ⟨members, hmembers, rfl⟩ := ok_of_written hdb
  cases hret
  refine ⟨caller, target, hrow, ?_, hx, fun hc => hcount (of_decide_eq_true hc), updateRow_ok hmembers⟩
  simpa [MemberRequest.mayAct] using hrole

theorem removeMember_ok
    (h : OrganizationService.removeMember currentUser organizationId targetUserId s = (.ok (), s')) :
    ∃ caller target, s.db.organizationMembers.get? (organizationId, currentUser.id) = some caller ∧
      (MemberRequest.remove targetUserId).mayAct currentUser.id caller.role = true ∧
      s.db.organizationMembers.get? (organizationId, targetUserId) = some target ∧
      ((MemberRequest.remove targetUserId).countsOwners target.role = true →
        1 < s.db.ownerCount organizationId) ∧
      s'.db.organizationMembers = s.db.organizationMembers.erase target.key := by
  have hlast : ∀ {target : OrganizationMember},
      (do if target.role = .owner then OrganizationService.keepOwner organizationId
          OrganizationMemberRepository.removeMember target : ServiceM Unit) s = (.ok (), s') →
        ((MemberRequest.remove targetUserId).countsOwners target.role = true →
          1 < s.db.ownerCount organizationId) ∧
        s'.db.organizationMembers = s.db.organizationMembers.erase target.key := by
    intro target hrun
    obtain ⟨hcount, hwrite⟩ := keepOwner_ok hrun
    obtain ⟨db, hdb, rfl⟩ := flush_ok hwrite
    obtain ⟨members, hmembers, rfl⟩ := ok_of_written hdb
    exact ⟨fun hc => hcount (of_decide_eq_true hc), deleteRow_ok hmembers⟩
  unfold OrganizationService.removeMember OrganizationMemberRepository.getMembership at h
  dsimp only at h
  split at h
  · rename_i hself
    obtain ⟨caller, s₁, hcaller, hguard⟩ := ok_of_bind h
    obtain ⟨hrow, -⟩ := requireMembership_ok hcaller
    rw [(readOnly_requireMembership _ _ _ _).same hcaller] at hguard
    exact ⟨caller, caller, hrow, decide_eq_true (.inl hself), hself ▸ hrow, hlast hguard⟩
  · obtain ⟨caller, s₁, hcaller, hfind⟩ := ok_of_bind h
    obtain ⟨hrow, hrole⟩ := requireMembership_ok hcaller
    rw [(readOnly_requireMembership _ _ _ _).same hcaller] at hfind
    obtain ⟨x, s₂, hquery, hexists⟩ := ok_of_bind hfind
    rw [(readOnly_query _).same hquery] at hexists
    obtain ⟨target, s₃, htarget, hguard⟩ := ok_of_bind hexists
    rw [(readOnly_existing _ _).same htarget] at hguard
    have hx := existing_ok htarget
    rw [query_ok hquery] at hx
    have howner : caller.role = .owner := by simpa using hrole
    exact ⟨caller, target, hrow, decide_eq_true (.inr howner), hx, hlast hguard⟩

end

/-- No transaction is under way; members belong to organizations, and each of those has an owner. -/
structure MemberStore.Start (s : MemberStore) : Prop where
  transactions : s.transactions = .empty
  members : ∀ r ∈ s.rows.rows, r.organizationId ∈ s.organizations
  owners : s.HasOwners

/-- In every run, every organization has an owner in every committed state, if and only if
every COMMIT that takes one after the owners have changed under it leaves another. -/
theorem organizations_keep_owners_iff (s₀ s : MemberStore) (as : List MemberAction) (h₀ : s₀.Start)
    (hrun : Run MemberStore.step s₀ as s) :
    Always MemberStore.step MemberStore.HasOwners s₀ as ↔ Each MemberStore.step CommitsOnCounted s₀ as := by
  refine always_hasOwners_iff ⟨h₀.members, fun t tx htx => ?_⟩ h₀.owners hrun
  rw [h₀.transactions] at htx
  cases htx

/-- Nothing yet. -/
def noOrganizations : MemberStore where
  organizations := []
  rows := .empty
  nextId := 100
  transactions := .empty
  ownerChanges := []

theorem start_noOrganizations : noOrganizations.Start where
  transactions := rfl
  members := by simp [noOrganizations, Table.empty]
  owners := by rintro o ⟨⟩

/-- An organization of user 1 with user 2 as its other owner. -/
def twoOwners : List MemberAction :=
  [.createOrganization 0 1, .begin 0 0 1 (.add 2 .owner), .read 0, .read 0, .flush 0, .commit 0 .ok]

/-- The steps of one of them who leaves, up to its flush. -/
def leaving (t : ℕ) (user : UUID) : List MemberAction :=
  [.begin t 0 user (.remove user), .read t, .read t, .flush t]

/-- The first has left when the other one asks to. -/
def leaveInTurn : List MemberAction :=
  twoOwners ++ leaving 1 1 ++ [.commit 1 .ok, .begin 2 0 2 (.remove 2), .read 2, .read 2]

/-- Both have counted two owners before either leaves. -/
def leaveTogether : List MemberAction := twoOwners ++ leaving 1 1 ++ leaving 2 2 ++ [.commit 1 .ok, .commit 2 .ok]

theorem organizations_keep_owners_leaveInTurn :
    Always MemberStore.step MemberStore.HasOwners noOrganizations leaveInTurn ↔
      Each MemberStore.step CommitsOnCounted noOrganizations leaveInTurn :=
  organizations_keep_owners_iff noOrganizations _ leaveInTurn start_noOrganizations
    (run_final leaveInTurn (by rfl))

/-- Then the organization has no owner. -/
theorem not_organizations_keep_owners_leaveTogether :
    ¬ Always MemberStore.step MemberStore.HasOwners noOrganizations leaveTogether := by
  intro h
  have hrun : Run MemberStore.step noOrganizations leaveTogether _ := run_final leaveTogether (by rfl)
  obtain ⟨r, hr, -⟩ := h.last hrun 0 List.mem_cons_self
  exact absurd hr (List.not_mem_nil)

end ApiTesting
