import ApiTesting.Proofs.Ownership
import ApiTesting.Proofs.Contexts

/-! The order of a chain. Nothing in the code makes a step wait for the steps
before it; the order holds just as far as the deliveries happen to respect it. -/

namespace ApiTesting

open Keyed Machine

/-- `a` comes before `b` in the chain of their run and data row. -/
def TestTask.precedes (a b : TestTask) : Bool :=
  a.testRunId = b.testRunId ∧ a.dataRowIndex = b.dataRowIndex ∧ a.sequenceOrder < b.sequenceOrder

/-- The key a task keeps its variables under. -/
def TestTask.contextKey (t : TestTask) : String := RunContext.contextKey t.testRunId t.dataRowIndex

/-- Whether a task keeps its variables under the key. -/
def Database.keeps (db : Database) (key : String) (t : UUID) : Bool :=
  (db.testTasks.get? t).any fun row => row.contextKey = key

/-- The value published last under a name, among the tasks of one key. -/
def Database.lastPublished (db : Database) (key name : String) (published : List (UUID × Dict String String)) :
    Option String :=
  published.foldl (fun value p => if db.keeps key p.1 then (p.2.lookup name).or value else value) none

/-- The value of the data row comes before the one of the context. -/
def TaskView.ownOr (v : TaskView) (name value : String) : String :=
  (v.testTask.dataContext.bind fun row => row.lookup name).getD value

/-- Every task before `v` in its chain is terminal and publishes nothing more, and the chain
has each variable it has published, with the value published last by then. -/
def System.InOrder (s : System) (v : TaskView) (chain : Dict String String) : Prop :=
  ∃ before later, s.published = before ++ later ∧
    ∀ row ∈ s.stores.db.testTasks.rows, row.precedes v.testTask →
      row.status.terminal ∧ (∀ p ∈ later, p.1 ≠ row.id) ∧
        ∀ vars, (row.id, vars) ∈ s.published → ∀ name ∈ vars.keys,
          ∃ value, s.stores.db.lastPublished v.testTask.contextKey name before = some value ∧
            chain.lookup name = some (v.ownOr name value)

/-- Where the step sends the request of a task, every task before it in its chain is
terminal and its variables are in the context the request was resolved against. -/
def ChainOrdered (lib : Libraries) (rateLimiter : Bool) (s : System) (a : Action) : Prop :=
  ∀ w i allowed now call slot v chain s', a = .slot w i (.send allowed now call) →
    s.slotAt? w i = some slot → slot.phase = .resolved v chain →
    step lib rateLimiter s a = some s' → s'.sent ≠ s.sent → s.InOrder v chain

/-! What a step has to respect. -/

/-- The context of a task is read once every task before it is terminal. -/
def readsInTurn (s : System) (a : Action) : Bool :=
  match a with
  | .slot w i (.readContext _) =>
    match s.slotAt? w i with
    | some ⟨_, .loaded v⟩ =>
      s.stores.db.testTasks.rows.all fun row => !row.precedes v.testTask || row.status.terminal
    | _ => true
  | _ => true

/-- No attempt starts on a terminal row, or while another one of its task is in flight. -/
def startsOnce (s : System) (a : Action) : Bool :=
  startsAlone s a &&
    match a with
    | .slot w i .load =>
      match s.slotAt? w i with
      | some slot => (s.stores.db.testTasks.get? slot.entry.taskId).all fun row => !row.status.terminal
      | none => true
    | _ => true

/-- No context has expired when it is read or merged into. -/
def usesLive (s : System) (a : Action) : Bool :=
  match a with
  | .slot w i (.readContext now) =>
    match s.slotAt? w i with
    | some ⟨_, .loaded v⟩ => s.stores.contexts.unexpired now v.contextKey
    | _ => true
  | .slot w i (.settle _ now _ _) =>
    match s.slotAt? w i with
    | some ⟨_, .executing v _⟩ => s.stores.contexts.unexpired now v.contextKey
    | _ => true
  | _ => true

section
variable {s : System} {w : WorkerId} {i : ℕ} {slot : Slot} {v : TaskView} {now : Timestamp}

theorem unexpired_of_readContext (hl : usesLive s (.slot w i (.readContext now)))
    (hat : s.slotAt? w i = some slot) (hph : slot.phase = .loaded v) :
    s.stores.contexts.unexpired now v.contextKey := by
  obtain ⟨entry, phase⟩ := slot
  cases hph
  simpa [usesLive, hat] using hl

theorem unexpired_of_settle {chain : Dict String String} {reply : HttpReply} {call expireCall : Call}
    (hl : usesLive s (.slot w i (.settle reply now call expireCall))) (hat : s.slotAt? w i = some slot)
    (hph : slot.phase = .executing v chain) : s.stores.contexts.unexpired now v.contextKey := by
  obtain ⟨entry, phase⟩ := slot
  cases hph
  simpa [usesLive, hat] using hl

end

/-! What follows from it. -/

/-- Some entry has read its context and not sent its request yet. -/
def System.Resolved (s : System) (v : TaskView) (chain : Dict String String) : Prop :=
  ∃ (w : WorkerId) (slots : List Slot), s.workers[w]? = some (.gathering slots) ∧
    ∃ slot ∈ slots, slot.phase = .resolved v chain

/-- The attempts in flight: one for a task, and only for a row that is open. -/
structure OneEach (s : System) : Prop where
  single : (s.attempts.map Attempt.taskId).Nodup
  isOpen : ∀ b ∈ s.attempts, ∃ row, s.stores.db.testTasks.get? b.taskId = some row ∧ row.status.terminal = false
  planned : ∀ v, .running v ∈ s.attempts → ∃ row, s.stores.db.testTasks.get? v.testTask.id = some row ∧
    row.plan = v.testTask.plan ∧ v.testRun.id = v.testTask.testRunId

/-- Under each key and name is the value that was published last. -/
def Stored (s : System) : Prop :=
  ∀ key name value, s.stores.db.lastPublished key name s.published = some value →
    (s.stores.contexts.valuesAt key).lookup name = some value

/-- An entry about to be sent is in order. -/
def Ready (s : System) : Prop := ∀ v chain, s.Resolved v chain → s.InOrder v chain

structure Chained (s : System) : Prop where
  one : OneEach s
  stored : Stored s
  ready : Ready s

section
variable {lib : Libraries} {rateLimiter : Bool} {s₀ s s' : System} {a : Action}

/-! Rows keep their plan, and a row none of whose attempts is in flight stays as it is. -/

theorem plan_of_move (h : Move lib rateLimiter s a s') (t : UUID) :
    (s'.stores.db.testTasks.get? t).map TestTask.plan = (s.stores.db.testTasks.get? t).map TestTask.plan := by
  cases advance_of_move h with
  | quiet hdb => rw [hdb]
  | started _ _ _ _ _ hdb => rw [hdb]
  | settled _ _ _ _ _ hdb => rw [hdb]
  | lost _ hdb => rw [hdb]
  | committed _ _ _ hok => rw [(written_of_writeBatch hok).testTasks, map_plan_foldl_applyOutcome]

theorem row_of_move (h : Move lib rateLimiter s a s') {t : UUID} {row : TestTask}
    (hrow : s.stores.db.testTasks.get? t = some row) (hnone : ∀ b ∈ s.attempts, b.taskId ≠ t) :
    s'.stores.db.testTasks.get? t = some row := by
  cases advance_of_move h with
  | quiet hdb => rwa [hdb]
  | started _ _ _ _ _ hdb => rwa [hdb]
  | settled _ _ _ _ _ hdb => rwa [hdb]
  | lost _ hdb => rwa [hdb]
  | @committed w now call b _ _ _ hok hatt =>
    rw [(written_of_writeBatch hok).get?_testTasks_ne, hrow]
    intro o ho
    refine hnone (.ended o) ?_
    rw [hatt]
    exact Multiset.mem_add.2 (.inl (List.mem_map_of_mem ho))

/-- A row after the step has the plan of a row before it. -/
theorem exists_row_before (h : Move lib rateLimiter s a s') {t : UUID} {row' : TestTask}
    (hrow' : s'.stores.db.testTasks.get? t = some row') :
    ∃ row, s.stores.db.testTasks.get? t = some row ∧ row.plan = row'.plan := by
  have := plan_of_move h t
  rw [hrow'] at this
  exact Option.map_eq_some_iff.1 this.symm

theorem precedes_congr {q r v : TestTask} (h : q.plan = r.plan) : q.precedes v = r.precedes v := by
  have h1 : q.plan.testRunId = r.plan.testRunId := by rw [h]
  have h2 : q.plan.dataRowIndex = r.plan.dataRowIndex := by rw [h]
  have h3 : q.plan.sequenceOrder = r.plan.sequenceOrder := by rw [h]
  change q.testRunId = r.testRunId at h1
  change q.dataRowIndex = r.dataRowIndex at h2
  change q.sequenceOrder = r.sequenceOrder at h3
  unfold TestTask.precedes
  rw [h1, h2, h3]

/-- The tasks of a batch have no other attempt in flight, so its write leaves the rows
of the attempts that stay in flight as they are. -/
theorem OneEach.row_of_write (h : OneEach s) {outcomes : List TaskOutcome} {now : Timestamp}
    (hok : writeBatch outcomes now s.stores.db = .ok s'.stores.db)
    (hatt : s.attempts = ↑(outcomes.map Attempt.ended) + s'.attempts) {b : Attempt} (hb : b ∈ s'.attempts) :
    s'.stores.db.testTasks.get? b.taskId = s.stores.db.testTasks.get? b.taskId := by
  refine (written_of_writeBatch hok).get?_testTasks_ne fun o ho he => ?_
  have hnd := h.single
  rw [hatt, Multiset.map_add] at hnd
  have hmem : (Attempt.ended o).taskId ∈ Multiset.map Attempt.taskId ↑(outcomes.map Attempt.ended) :=
    Multiset.mem_map_of_mem _ (List.mem_map_of_mem ho)
  rw [Attempt.taskId, he] at hmem
  exact Multiset.disjoint_left.1 (Multiset.nodup_add.1 hnd).2.2 hmem (Multiset.mem_map_of_mem _ hb)

theorem OneEach.step (h : OneEach s) (hs : startsOnce s a) (hm : Move lib rateLimiter s a s') : OneEach s' := by
  -- what is in flight after the step, where the rows are the same
  have hkeep : s'.stores.db = s.stores.db → (s'.attempts.map Attempt.taskId).Nodup →
      (∀ b ∈ s'.attempts, ∃ row, s.stores.db.testTasks.get? b.taskId = some row ∧ row.status.terminal = false) →
      (∀ v, .running v ∈ s'.attempts → .running v ∈ s.attempts ∨ loadTask s.stores.db v.testTask.id = .ok v) →
      OneEach s' := by
    intro hdb hsingle hopen hrun
    refine ⟨hsingle, ?_, fun v hv => ?_⟩
    · rw [hdb]
      exact hopen
    · rw [hdb]
      rcases hrun v hv with hv | hv
      · exact h.planned v hv
      · obtain ⟨ht, -, hr⟩ := loadTask_eq_ok_iff.1 hv
        exact ⟨v.testTask, ht, rfl, (Table.get?_eq_some_iff.1 hr).2⟩
  cases advance_of_move hm with
  | quiet hdb hatt => exact hkeep hdb (hatt ▸ h.single) (hatt ▸ h.isOpen) fun v hv => .inl (hatt ▸ hv)
  | @started w i slots slot v ha hw hi hph hload hdb hatt =>
    subst ha
    have hid : v.testTask.id = slot.entry.taskId :=
      (Table.get?_eq_some_iff.1 (loadTask_eq_ok_iff.1 hload).1).2
    have hget := (loadTask_eq_ok_iff.1 hload).1
    rw [startsOnce, Bool.and_eq_true, startsAlone, slotAt?_eq hw hi] at hs
    refine hkeep hdb ?_ ?_ ?_
    · rw [hatt, Multiset.map_cons, Multiset.nodup_cons]
      refine ⟨fun hmem => ?_, h.single⟩
      obtain ⟨b, hb, hbid⟩ := Multiset.mem_map.1 hmem
      have halone : s.inFlight slot.entry.taskId = false := by simpa using hs.1
      exact inFlight_eq_false_iff.1 halone b hb (hbid.trans hid)
    · intro b hb
      rw [hatt] at hb
      rcases Multiset.mem_cons.1 hb with rfl | hb
      · refine ⟨v.testTask, by rw [Attempt.taskId, hid]; exact hget, ?_⟩
        simpa [hget] using hs.2
      · exact h.isOpen b hb
    · intro u hu
      rw [hatt] at hu
      rcases Multiset.mem_cons.1 hu with he | hu
      · cases he
        exact .inr (hid ▸ hload)
      · exact .inl hu
  | @settled w i slots slot v chain reply now call expireCall write o rest _ _ _ _ hj hdb hs₁ hs₂ =>
    have hid : o.testTaskId = v.testTask.id := (judgeReply_concludes hj).testTaskId
    refine hkeep hdb ?_ ?_ ?_
    · have := h.single
      rw [hs₁, Multiset.map_cons, Attempt.taskId] at this
      rwa [hs₂, Multiset.map_cons, Attempt.taskId, hid]
    · intro b hb
      rw [hs₂] at hb
      rcases Multiset.mem_cons.1 hb with rfl | hb
      · have := h.isOpen (.running v) (hs₁ ▸ Multiset.mem_cons_self _ _)
        rw [Attempt.taskId] at this
        rwa [Attempt.taskId, hid]
      · exact h.isOpen b (hs₁ ▸ Multiset.mem_cons_of_mem hb)
    · intro u hu
      rw [hs₂] at hu
      rcases Multiset.mem_cons.1 hu with he | hu
      · cases he
      · exact .inl (hs₁ ▸ Multiset.mem_cons_of_mem hu)
  | lost gone hdb hatt =>
    have hle : s'.attempts ≤ s.attempts := hatt ▸ Multiset.le_add_left _ _
    refine hkeep hdb ?_ (fun b hb => h.isOpen b (Multiset.mem_of_le hle hb)) fun v hv =>
      .inl (Multiset.mem_of_le hle hv)
    exact Multiset.nodup_of_le (Multiset.map_le_map hle) h.single
  | @committed w now call b _ _ _ hok hatt =>
    have hle : s'.attempts ≤ s.attempts := hatt ▸ Multiset.le_add_left _ _
    refine ⟨Multiset.nodup_of_le (Multiset.map_le_map hle) h.single, ?_, ?_⟩
    · intro b' hb'
      rw [h.row_of_write hok hatt hb']
      exact h.isOpen b' (Multiset.mem_of_le hle hb')
    · intro v hv
      have := h.row_of_write hok hatt hv
      rw [Attempt.taskId] at this
      rw [this]
      exact h.planned v (Multiset.mem_of_le hle hv)

/-- An entry that has read its context had done so before, or does so in this step. -/
theorem resolved_of_move (hm : Move lib rateLimiter s a s') {v : TaskView} {chain : Dict String String}
    (h : s'.Resolved v chain) : s.Resolved v chain ∨ ∃ w i slots slot now,
      a = .slot w i (.readContext now) ∧ s.workers[w]? = some (.gathering slots) ∧
      slots[i]? = some slot ∧ slot.phase = .loaded v ∧ chain = v.chainContext now s.stores.contexts := by
  obtain ⟨w, slots', hw', slot', hslot', hph'⟩ := h
  obtain ⟨i, hi'⟩ := List.getElem?_of_mem hslot'
  rcases slotAt?_of_move hm (slotAt?_eq hw' hi') with ⟨hold, -⟩ | ⟨sa, slot, e, rfl, hold, hmove, rfl⟩ |
    ⟨count, now, rfl, -, hdelivered⟩
  · obtain ⟨slots, hw, hi⟩ := slotAt?_eq_some_iff.1 hold
    exact .inl ⟨w, slots, hw, slot', List.mem_of_getElem? hi, hph'⟩
  · obtain ⟨slots, hw, hi⟩ := slotAt?_eq_some_iff.1 hold
    cases hmove with
    | @readContext v' now hph =>
      cases hph'
      exact .inr ⟨w, i, slots, slot, now, rfl, hw, hi, hph, rfl⟩
    | _ => cases hph'
  · rw [hdelivered] at hph'
    cases hph'

/-- The key an attempt uses is the key of its row. -/
theorem OneEach.contextKey_eq (h : OneEach s) {v : TaskView} (hv : .running v ∈ s.attempts) :
    v.contextKey = v.testTask.contextKey := by
  obtain ⟨-, -, -, hrun⟩ := h.planned v hv
  rw [TaskView.contextKey, hrun, TestTask.contextKey]

/-- A task keeps its variables under one key, and it is the one its attempt uses. -/
theorem OneEach.keeps_iff (h : OneEach s) {v : TaskView} (hv : .running v ∈ s.attempts) {key : String} :
    s.stores.db.keeps key v.testTask.id ↔ v.contextKey = key := by
  obtain ⟨row, hrow, hplan, -⟩ := h.planned v hv
  have hkey : row.contextKey = v.testTask.contextKey := by
    change row.plan.contextKey = v.testTask.plan.contextKey
    rw [hplan]
  simp [Database.keeps, hrow, hkey, h.contextKey_eq hv]

theorem keeps_of_move (hm : Move lib rateLimiter s a s') (key : String) (t : UUID) :
    s'.stores.db.keeps key t = s.stores.db.keeps key t := by
  have hplan : ∀ db : Database, db.keeps key t =
      ((db.testTasks.get? t).map TestTask.plan).any fun row => row.contextKey = key := by
    intro db
    rw [Option.any_map]
    rfl
  rw [hplan, hplan, plan_of_move hm]

theorem lastPublished_of_move (hm : Move lib rateLimiter s a s') (key name : String)
    (published : List (UUID × Dict String String)) :
    s'.stores.db.lastPublished key name published = s.stores.db.lastPublished key name published := by
  simp only [Database.lastPublished, keeps_of_move hm]

section
variable {db : Database} {key name : String} {published : List (UUID × Dict String String)}

theorem lastPublished_snoc (db : Database) (key name : String)
    (published : List (UUID × Dict String String)) (p : UUID × Dict String String) :
    db.lastPublished key name (published ++ [p]) =
      if db.keeps key p.1 then (p.2.lookup name).or (db.lastPublished key name published)
      else db.lastPublished key name published := by
  rw [Database.lastPublished, List.foldl_append]
  rfl

/-- What has been published is there, with this value or a later one. -/
theorem exists_lastPublished {t : UUID} {vars : Dict String String} (ht : db.keeps key t)
    (hmem : (t, vars) ∈ published) (hname : name ∈ vars.keys) :
    ∃ value, db.lastPublished key name published = some value := by
  rw [← Option.isSome_iff_exists]
  induction published using List.reverseRecOn with
  | nil => cases hmem
  | append_singleton published p ih =>
    rw [lastPublished_snoc]
    rcases List.mem_append.1 hmem with hmem | hmem
    · split
      · rw [Option.isSome_or, ih hmem, Bool.or_true]
      · exact ih hmem
    · obtain rfl := List.mem_singleton.1 hmem
      rw [if_pos ht, Option.isSome_or, Dict.isSome_lookup_iff.2 hname, Bool.true_or]

end

theorem Stored.step (h : Stored s) (hone : OneEach s) (hl : usesLive s a) (hm : Move lib rateLimiter s a s') :
    Stored s' := by
  intro key name value hlast
  rw [lastPublished_of_move hm] at hlast
  rcases published_of_move hm with ⟨hpub, hctx⟩ |
    ⟨w, i, slots, slot, v, chain, reply, now, call, expireCall, write, o, rfl, hw, hi, hph, -, hpub, hctx⟩
  · rw [hpub] at hlast
    rw [hctx]
    exact h key name value hlast
  · have hrun : .running v ∈ s.attempts :=
      mem_attempts_of_slot hw hi (by simp [Slot.attempts, hph, Phase.attempts])
    have hlive : s.stores.contexts.unexpired now v.contextKey :=
      unexpired_of_settle hl (slotAt?_eq hw hi) hph
    rw [hctx]
    rw [hpub] at hlast
    by_cases hkey : v.contextKey = key
    · subst hkey
      rw [valuesAt_perform hlive]
      cases write with
      | merge vars =>
        dsimp only at hlast ⊢
        split
        · rename_i hcall
          -- the values merged come first, in the hash as in what is published
          rw [if_pos hcall, lastPublished_snoc, if_pos ((hone.keeps_iff hrun).2 rfl)] at hlast
          rw [Dict.lookup_update]
          rcases hnew : vars.lookup name with _ | new
          · rw [hnew, Option.none_or] at hlast
            exact h _ name value hlast
          · rw [hnew, Option.some_or] at hlast
            exact hlast
        · rename_i hcall
          rw [if_neg hcall, List.append_nil] at hlast
          exact h _ name value hlast
      | _ =>
        rw [List.append_nil] at hlast
        exact h _ name value hlast
    · rw [valuesAt_perform_ne (Ne.symm hkey)]
      refine h key name value ?_
      cases write with
      | merge vars =>
        dsimp only at hlast
        split at hlast
        · rwa [lastPublished_snoc, if_neg fun hk => hkey ((hone.keeps_iff hrun).1 hk)] at hlast
        · rwa [List.append_nil] at hlast
      | _ => rwa [List.append_nil] at hlast

/-- A step publishes only for attempts in flight. -/
theorem published_of_attempts (hm : Move lib rateLimiter s a s') :
    ∃ new, s'.published = s.published ++ new ∧ ∀ p ∈ new, ∃ b ∈ s.attempts, b.taskId = p.1 := by
  rcases published_of_move hm with ⟨hpub, -⟩ |
    ⟨w, i, slots, slot, v, chain, reply, now, call, expireCall, write, o, -, hw, hi, hph, -, hpub, -⟩
  · exact ⟨[], by rw [hpub, List.append_nil], by rintro p ⟨⟩⟩
  · have hrun : .running v ∈ s.attempts :=
      mem_attempts_of_slot hw hi (by simp [Slot.attempts, hph, Phase.attempts])
    refine ⟨_, hpub, fun p hp => ⟨.running v, hrun, ?_⟩⟩
    cases write with
    | merge vars =>
      dsimp only at hp
      split at hp
      · rw [List.mem_singleton.1 hp]
        rfl
      · cases hp
    | _ => cases hp

/-- What was in order stays so: nothing of a terminal row is in flight, so the step neither
writes nor publishes for it. -/
theorem System.InOrder.step {v : TaskView} {chain : Dict String String} (h : s.InOrder v chain)
    (hone : OneEach s) (hm : Move lib rateLimiter s a s') : s'.InOrder v chain := by
  obtain ⟨before, later, hpub, hrows⟩ := h
  obtain ⟨new, hnew, hof⟩ := published_of_attempts hm
  refine ⟨before, later ++ new, by rw [hnew, hpub, List.append_assoc], fun row' hrow' hprec => ?_⟩
  have hget' := Table.get?_eq_some_iff.2 ⟨hrow', rfl⟩
  obtain ⟨row, hrow, hplan⟩ := exists_row_before hm hget'
  obtain ⟨hterm, hlater, hvars⟩ := hrows row (Table.get?_eq_some_iff.1 hrow).1 (precedes_congr hplan ▸ hprec)
  have hnone : ∀ b ∈ s.attempts, b.taskId ≠ row'.id := by
    intro b hb he
    obtain ⟨q, hq, hopen⟩ := hone.isOpen b hb
    rw [he, hrow] at hq
    cases hq
    rw [hterm] at hopen
    cases hopen
  have hsame := row_of_move hm hrow hnone
  rw [hget'] at hsame
  cases hsame
  have hnotNew : ∀ p ∈ new, p.1 ≠ row'.id := by
    intro p hp he
    obtain ⟨b, hb, hid⟩ := hof p hp
    exact hnone b hb (hid.trans he)
  refine ⟨hterm, fun p hp => ?_, fun vars hp name hname => ?_⟩
  · rcases List.mem_append.1 hp with hp | hp
    · exact hlater p hp
    · exact hnotNew p hp
  · rw [lastPublished_of_move hm]
    rw [hnew] at hp
    rcases List.mem_append.1 hp with hp | hp
    · exact hvars vars hp name hname
    · exact absurd rfl (hnotNew _ hp)

theorem Ready.step (h : Chained s) (hr : readsInTurn s a) (hl : usesLive s a)
    (hm : Move lib rateLimiter s a s') : Ready s' := by
  intro v chain hres
  rcases resolved_of_move hm hres with hold | ⟨w, i, slots, slot, now, rfl, hw, hi, hph, rfl⟩
  · exact (h.ready v chain hold).step h.one hm
  have hrun : .running v ∈ s.attempts :=
    mem_attempts_of_slot hw hi (by simp [Slot.attempts, hph, Phase.attempts])
  obtain ⟨entry, phase⟩ := slot
  cases hph
  have hdb : s'.stores.db = s.stores.db := by
    rcases db_of_move hm with ⟨_, _, _, _, he, -, -⟩ | ⟨-, hdb⟩
    · cases he
    · exact hdb
  have hpub : s'.published = s.published := by
    rcases published_of_move hm with ⟨hpub, -⟩ | ⟨_, _, _, _, _, _, _, _, _, _, _, _, he, -⟩
    · exact hpub
    · cases he
  have hlive : s.stores.contexts.unexpired now v.contextKey :=
    unexpired_of_readContext hl (slotAt?_eq hw hi) rfl
  refine ⟨s.published, [], by rw [hpub, List.append_nil], fun row hrow hprec => ⟨?_, by rintro p ⟨⟩, ?_⟩⟩
  · have hread : ∀ q ∈ s.stores.db.testTasks.rows,
        q.precedes v.testTask = false ∨ q.status.terminal := by
      simpa [readsInTurn, slotAt?_eq hw hi] using hr
    exact (hread row (hdb ▸ hrow)).resolve_left (by simp [hprec])
  · intro vars hp name hname
    rw [hpub] at hp
    rw [hdb]
    have hkeeps : s.stores.db.keeps v.testTask.contextKey row.id := by
      have hkey : row.contextKey = v.testTask.contextKey := by
        simp only [TestTask.precedes, decide_eq_true_eq] at hprec
        rw [TestTask.contextKey, hprec.1, hprec.2.1, TestTask.contextKey]
      rw [hdb] at hrow
      simp [Database.keeps, Table.get?_eq_some_iff.2 ⟨hrow, rfl⟩, hkey]
    obtain ⟨value, hvalue⟩ := exists_lastPublished hkeeps hp hname
    refine ⟨value, hvalue, ?_⟩
    have hstored := h.stored _ name value hvalue
    rw [← h.one.contextKey_eq hrun] at hstored
    rw [lookup_chainContext, RunContext.getAll_eq_valuesAt hlive]
    change _ = some (Option.getD _ _)
    rw [show RunContext.contextKey v.testRun.id v.testTask.dataRowIndex = v.contextKey from rfl, hstored]
    rcases v.testTask.dataContext.bind fun row => row.lookup name with _ | own <;> rfl

theorem Fresh.chained (h : Fresh s) : Chained s := by
  refine ⟨⟨?_, ?_, ?_⟩, ?_, ?_⟩
  · rw [attempts_eq_zero h.idle]
    exact Multiset.nodup_zero
  · intro b hb
    rw [attempts_eq_zero h.idle] at hb
    cases hb
  · intro v hv
    rw [attempts_eq_zero h.idle] at hv
    cases hv
  · intro key name value hlast
    rw [h.noVariable] at hlast
    cases hlast
  · rintro v chain ⟨w, slots, hw, -⟩
    cases h.idle _ (List.mem_of_getElem? hw)

theorem Chained.ordered (h : Chained s) : ChainOrdered lib rateLimiter s a := by
  intro w i allowed now call slot v chain s' _ hat hph _ _
  obtain ⟨slots, hw, hi⟩ := slotAt?_eq_some_iff.1 hat
  exact h.ready v chain ⟨w, slots, hw, slot, List.mem_of_getElem? hi, hph⟩

/-- Along a run in which a context is read only once the tasks before are terminal,
no attempt starts on a terminal row or beside another one of its task, and no
context expires, every request is sent in the order of its chain. -/
theorem chain_ordered {as : List Action} (h₀ : Fresh s₀)
    (hr : Each (step lib rateLimiter) (fun s a => readsInTurn s a) s₀ as)
    (hs : Each (step lib rateLimiter) (fun s a => startsOnce s a) s₀ as)
    (hl : Each (step lib rateLimiter) (fun s a => usesLive s a) s₀ as) :
    Each (step lib rateLimiter) (ChainOrdered lib rateLimiter) s₀ as := by
  have hinv : Always (step lib rateLimiter) Chained s₀ as := by
    refine Run.always (hr.and (hs.and hl)) h₀.chained ?_
    intro u a u' hu ⟨hr, hs, hl⟩ hstep
    have hm := move_of_step hstep
    exact ⟨hu.one.step hs hm, hu.stored.step hu.one hl hm, Ready.step hu hr hl hm⟩
  intro bs a u hpre hu
  exact (hinv bs u ((List.prefix_append bs [a]).trans hpre) hu).ordered

end

/-- A run whose first step gets a token, which the second sends in a header. -/
def handedOn : Database :=
  { plainRun 2 3 with
    apiRequests := Table.set
      (Table.set .empty { plainRequest 0 with extractRules := [.jsonPath "$" "token"] })
      { plainRequest 1 with headers := Dict.put .empty "X-Token" "\x7b\x7btoken\x7d\x7d" } }

theorem launchable_handedOn : Launchable handedOn where
  waiting := (launchable_plainRun (show 0 < 2 by decide) 3).waiting
  parents := by
    intro t ht
    have hlisted : pendingTask 0 0 0 0 3 = t ∨ pendingTask 1 0 1 1 3 = t := by
      simpa [handedOn, plainRun, List.range_succ, eq_comm] using ht
    rcases hlisted with rfl | rfl
    · exact ⟨rfl, rfl⟩
    · exact ⟨rfl, rfl⟩
  running := (launchable_plainRun (show 0 < 2 by decide) 3).running
  noResult := rfl

/-- The second step is delivered after the first is done. -/
def inTurn : List Action :=
  iteration 0 (tokenReply "t1") 0 ++ [.ack 0 .ok] ++ iteration 0 okReply 1000 ++ [.ack 0 .ok]

theorem ordered_inTurn :
    Each (step quotedLibraries false) (ChainOrdered quotedLibraries false) (launch handedOn 1) inTurn ∧
      (final (step quotedLibraries false) (launch handedOn 1) inTurn).sent.map
        (fun r => r.request.headers.lookup "X-Token") = [none, some "t1"] :=
  ⟨chain_ordered (fresh_launch launchable_handedOn 1)
    (each_of_eachB (p := readsInTurn) (fun _ _ h => h) (by rfl))
    (each_of_eachB (p := startsOnce) (fun _ _ h => h) (by rfl))
    (each_of_eachB (p := usesLive) (fun _ _ h => h) (by rfl)), by rfl⟩

/-- One batch with both steps: the second is sent before the first has even started. -/
def sideBySide : List Action :=
  [.consume 0 2 0, .slot 0 1 .load, .slot 0 1 (.readContext 0)]

theorem not_ordered_sideBySide :
    Fresh twoTasks ∧ (exec plainStep twoTasks (sideBySide ++ [.slot 0 1 (.send true 0 .ok)])).isSome ∧
      ¬ Each plainStep (ChainOrdered plainLibraries false) twoTasks
        (sideBySide ++ [.slot 0 1 (.send true 0 .ok)]) := by
  refine ⟨fresh_twoTasks, rfl, fun h => ?_⟩
  have hr : Run plainStep twoTasks sideBySide (final plainStep twoTasks sideBySide) := run_final _ rfl
  have hlast := ((each_snoc_iff hr).1 h).2
  have hsent : (final plainStep twoTasks (sideBySide ++ [.slot 0 1 (.send true 0 .ok)])).sent ≠
      (final plainStep twoTasks sideBySide).sent := by
    intro he
    have := congrArg List.length he
    cases this
  have hrow : pendingTask 0 0 0 0 3 ∈ (final plainStep twoTasks sideBySide).stores.db.testTasks.rows :=
    List.mem_cons_self
  obtain ⟨before, later, -, hrows⟩ := hlast 0 1 true 0 .ok _ _ _ _ rfl rfl rfl rfl hsent
  obtain ⟨hterm, -, -⟩ := hrows _ hrow rfl
  cases hterm

end ApiTesting
