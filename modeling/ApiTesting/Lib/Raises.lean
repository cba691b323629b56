import Mathlib.Tactic.Common

/-! Which exceptions a computation may end with. `Raises P x` bounds them by a
predicate, and its rules follow the way the computation is put together; `Ends P R x`
says of the value as well that `R` holds. A computation on a state keeps what it has
done to the state when it raises; the rules for those say how a handler or a second
half goes on from there, and which part of the state a computation leaves alone. -/

namespace Fallible

variable {ε ε' α β : Type} {P Q : ε → Prop} {x : Except ε α}

def Raises (P : ε → Prop) (x : Except ε α) : Prop := ∀ e, x = .error e → P e

theorem raises_ok (a : α) : Raises P (.ok a : Except ε α) := by
  intro e h
  cases h

theorem raises_error {e : ε} (h : P e) : Raises P (.error e : Except ε α) := by
  intro e' he
  cases he
  exact h

theorem Raises.mono (h : Raises P x) (hpq : ∀ e, P e → Q e) : Raises Q x := fun e he => hpq e (h e he)

theorem ok_bind {a : α} (f : α → Except ε β) : (.ok a : Except ε α) >>= f = f a := rfl

theorem Raises.bind {f : α → Except ε β} (hx : Raises P x) (hf : ∀ a, x = .ok a → Raises P (f a)) :
    Raises P (x >>= f) := by
  cases x with
  | error e => exact raises_error (hx e rfl)
  | ok a => exact hf a rfl

theorem bind_eq_ok_iff {f : α → Except ε β} {b : β} : x >>= f = .ok b ↔ ∃ a, x = .ok a ∧ f a = .ok b := by
  cases x with
  | error e => simp [bind, Except.bind]
  | ok a => simp [bind, Except.bind]

theorem Raises.map {f : α → β} (hx : Raises P x) : Raises P (x.map f) := by
  cases x with
  | error e => exact raises_error (hx e rfl)
  | ok a => exact raises_ok (f a)

theorem raises_mapError {f : ε' → ε} {y : Except ε' α} (h : ∀ e, P (f e)) :
    Raises P (y.mapError f) := by
  cases y with
  | error e => exact raises_error (h e)
  | ok a => exact raises_ok a

/-- A loop raises what one of its rounds raises. -/
theorem raises_foldlM {f : β → α → Except ε β} {l : List α} (h : ∀ a ∈ l, ∀ b, Raises P (f b a)) (b : β) :
    Raises P (l.foldlM f b) := by
  induction l generalizing b with
  | nil => exact raises_ok b
  | cons a l ih =>
    rw [List.foldlM_cons]
    rw [List.forall_mem_cons] at h
    exact (h.1 b).bind fun b' _ => ih h.2 b'

/-! How a computation ends: with an exception that one predicate bounds, or with a value
that another does. -/

def Ends (P : ε → Prop) (R : α → Prop) : Except ε α → Prop
  | .ok a => R a
  | .error e => P e

section
variable {R : α → Prop} {S : β → Prop}

@[simp] theorem ends_ok_iff {a : α} : Ends P R (.ok a : Except ε α) ↔ R a := Iff.rfl

@[simp] theorem ends_error_iff {e : ε} : Ends P R (.error e : Except ε α) ↔ P e := Iff.rfl

theorem ends_iff : Ends P R x ↔ (∃ a, x = .ok a ∧ R a) ∨ ∃ e, x = .error e ∧ P e := by
  cases x with
  | error e => simp
  | ok a => simp

theorem ends_bind_iff {f : α → Except ε β} : Ends P S (x >>= f) ↔ Ends P (fun a => Ends P S (f a)) x := by
  cases x with
  | error e => exact Iff.rfl
  | ok a => exact Iff.rfl

theorem Ends.bind {f : α → Except ε β} (hx : Ends P R x) (hf : ∀ a, R a → Ends P S (f a)) :
    Ends P S (x >>= f) := by
  cases x with
  | error e => exact hx
  | ok a => exact hf a hx

theorem Ends.mono {R' : α → Prop} (h : Ends P R x) (hpq : ∀ e, P e → Q e) (hr : ∀ a, R a → R' a) :
    Ends Q R' x := by
  cases x with
  | error e => exact hpq e h
  | ok a => exact hr a h

end

/-! Computations on a state. -/

section
variable {σ : Type} {m : ExceptT ε (StateM σ) α} {s s' : σ} {a : α} {e : ε}

theorem bind_of_ok (k : α → ExceptT ε (StateM σ) β) (h : m s = (.ok a, s')) : (m >>= k) s = k a s' := by
  simp only [bind, ExceptT.bind, ExceptT.mk, StateT.bind, ExceptT.bindCont]
  rw [h]

theorem bind_of_error (k : α → ExceptT ε (StateM σ) β) (h : m s = (.error e, s')) :
    (m >>= k) s = (.error e, s') := by
  simp only [bind, ExceptT.bind, ExceptT.mk, StateT.bind, ExceptT.bindCont]
  rw [h]
  rfl

theorem tryCatch_of_ok (k : ε → ExceptT ε (StateM σ) α) (h : m s = (.ok a, s')) :
    (tryCatch m k) s = (.ok a, s') := by
  simp only [tryCatch, tryCatchThe, MonadExceptOf.tryCatch, ExceptT.tryCatch, ExceptT.mk, bind, StateT.bind]
  rw [h]
  rfl

theorem tryCatch_of_error (k : ε → ExceptT ε (StateM σ) α) (h : m s = (.error e, s')) :
    (tryCatch m k) s = k e s' := by
  simp only [tryCatch, tryCatchThe, MonadExceptOf.tryCatch, ExceptT.tryCatch, ExceptT.mk, bind, StateT.bind]
  rw [h]

theorem ok_of_bind {k : α → ExceptT ε (StateM σ) β} {b : β} (h : (m >>= k) s = (.ok b, s')) :
    ∃ a s'', m s = (.ok a, s'') ∧ k a s'' = (.ok b, s') := by
  rcases hm : m s with ⟨r, s''⟩
  cases r with
  | ok a => exact ⟨a, s'', rfl, by rw [bind_of_ok k hm] at h; exact h⟩
  | error e =>
    rw [bind_of_error k hm] at h
    cases h

/-- What is made of the result does not matter to the state. -/
theorem snd_map (f : α → β) (m : ExceptT ε (StateM σ) α) (s : σ) : ((f <$> m) s).2 = (m s).2 := by
  rw [map_eq_pure_bind]
  rcases h : m s with ⟨r, s'⟩
  cases r with
  | ok a => rw [bind_of_ok _ h]; rfl
  | error e => rw [bind_of_error _ h]

/-- However it ends, the computation leaves this view of the state as it was. -/
def Keeps {τ : Type} (view : σ → τ) (m : ExceptT ε (StateM σ) α) : Prop := ∀ s, view (m s).2 = view s

variable {τ : Type} {view : σ → τ}

theorem keeps_pure (a : α) : Keeps view (pure a : ExceptT ε (StateM σ) α) := fun _ => rfl

theorem keeps_throw (e : ε) : Keeps view (throw e : ExceptT ε (StateM σ) α) := fun _ => rfl

theorem Keeps.bind {k : α → ExceptT ε (StateM σ) β} (hm : Keeps view m) (hk : ∀ a, Keeps view (k a)) :
    Keeps view (m >>= k) := by
  intro s
  have hs := hm s
  rcases h : m s with ⟨r, s'⟩
  rw [h] at hs
  cases r with
  | ok a =>
    rw [bind_of_ok k h]
    exact (hk a s').trans hs
  | error e =>
    rw [bind_of_error k h]
    exact hs

theorem Keeps.tryCatch {k : ε → ExceptT ε (StateM σ) α} (hm : Keeps view m) (hk : ∀ e, Keeps view (k e)) :
    Keeps view (tryCatch m k) := by
  intro s
  have hs := hm s
  rcases h : m s with ⟨r, s'⟩
  rw [h] at hs
  cases r with
  | ok a =>
    rw [tryCatch_of_ok k h]
    exact hs
  | error e =>
    rw [tryCatch_of_error k h]
    exact (hk e s').trans hs

theorem keeps_forM {f : α → ExceptT ε (StateM σ) PUnit} (hf : ∀ a, Keeps view (f a)) (l : List α) :
    Keeps view (l.forM f) := by
  induction l with
  | nil => exact keeps_pure _
  | cons a l ih => exact (hf a).bind fun _ => ih

/-- The same of one state to start from. -/
def KeepsFrom (view : σ → τ) (m : ExceptT ε (StateM σ) α) (s : σ) : Prop := view (m s).2 = view s

theorem KeepsFrom.bind {k : α → ExceptT ε (StateM σ) β} (hm : KeepsFrom view m s)
    (hk : ∀ a s', m s = (.ok a, s') → KeepsFrom view (k a) s') : KeepsFrom view (m >>= k) s := by
  unfold KeepsFrom at hm ⊢
  rcases h : m s with ⟨r, s'⟩
  rw [h] at hm
  cases r with
  | ok a =>
    rw [bind_of_ok k h]
    exact (hk a s' h).trans hm
  | error e =>
    rw [bind_of_error k h]
    exact hm

theorem KeepsFrom.tryCatch {k : ε → ExceptT ε (StateM σ) α} (hm : KeepsFrom view m s)
    (hk : ∀ e s', m s = (.error e, s') → KeepsFrom view (k e) s') : KeepsFrom view (tryCatch m k) s := by
  unfold KeepsFrom at hm ⊢
  rcases h : m s with ⟨r, s'⟩
  rw [h] at hm
  cases r with
  | ok a =>
    rw [tryCatch_of_ok k h]
    exact hm
  | error e =>
    rw [tryCatch_of_error k h]
    exact (hk e s' h).trans hm

/-- However it ends, the computation takes this state to a related one. -/
def RelatesFrom (R : σ → σ → Prop) (m : ExceptT ε (StateM σ) α) (s : σ) : Prop := R s (m s).2

/-- And every state. -/
def Relates (R : σ → σ → Prop) (m : ExceptT ε (StateM σ) α) : Prop := ∀ s, RelatesFrom R m s

section
variable {R : σ → σ → Prop}

theorem Keeps.relates [Std.Refl R] (hm : Keeps id m) : Relates R m := by
  intro s
  rw [RelatesFrom, show (m s).2 = s from hm s]
  exact Std.Refl.refl s

theorem relates_pure [Std.Refl R] (a : α) : Relates R (pure a : ExceptT ε (StateM σ) α) := (keeps_pure a).relates

theorem RelatesFrom.bind [IsTrans σ R] {k : α → ExceptT ε (StateM σ) β} (hm : RelatesFrom R m s)
    (hk : ∀ a s', m s = (.ok a, s') → RelatesFrom R (k a) s') : RelatesFrom R (m >>= k) s := by
  unfold RelatesFrom at hm ⊢
  rcases h : m s with ⟨r, s'⟩
  rw [h] at hm
  cases r with
  | ok a =>
    rw [bind_of_ok k h]
    exact trans_of R hm (hk a s' h)
  | error e =>
    rw [bind_of_error k h]
    exact hm

theorem RelatesFrom.tryCatch [IsTrans σ R] {k : ε → ExceptT ε (StateM σ) α} (hm : RelatesFrom R m s)
    (hk : ∀ e s', m s = (.error e, s') → RelatesFrom R (k e) s') : RelatesFrom R (tryCatch m k) s := by
  unfold RelatesFrom at hm ⊢
  rcases h : m s with ⟨r, s'⟩
  rw [h] at hm
  cases r with
  | ok a =>
    rw [tryCatch_of_ok k h]
    exact hm
  | error e =>
    rw [tryCatch_of_error k h]
    exact trans_of R hm (hk e s' h)

theorem Relates.bind [IsTrans σ R] {k : α → ExceptT ε (StateM σ) β} (hm : Relates R m) (hk : ∀ a, Relates R (k a)) :
    Relates R (m >>= k) := fun s => (hm s).bind fun a s' _ => hk a s'

theorem Relates.tryCatch [IsTrans σ R] {k : ε → ExceptT ε (StateM σ) α} (hm : Relates R m)
    (hk : ∀ e, Relates R (k e)) : Relates R (tryCatch m k) := fun s => (hm s).tryCatch fun e s' _ => hk e s'

end

/-! A computation seen through a view of its state: from a state, `m'` mirrors `m` if on
what the view shows it does what `m` does, and returns what `out` shows of the result. -/

section
variable {γ δ : Type} {out : α → γ} {m' : ExceptT ε (StateM τ) γ}

def Mirrors (view : σ → τ) (out : α → γ) (m : ExceptT ε (StateM σ) α) (m' : ExceptT ε (StateM τ) γ)
    (s : σ) : Prop :=
  m' (view s) = ((m s).1.map out, view (m s).2)

theorem mirrors_pure (a : α) :
    Mirrors view out (pure a : ExceptT ε (StateM σ) α) (pure (out a)) s := rfl

theorem mirrors_throw (e : ε) : Mirrors view out (throw e : ExceptT ε (StateM σ) α) (throw e) s := rfl

theorem Mirrors.bind {out' : β → δ} {k : α → ExceptT ε (StateM σ) β} {k' : γ → ExceptT ε (StateM τ) δ}
    (hm : Mirrors view out m m' s)
    (hk : ∀ a s', m s = (.ok a, s') → Mirrors view out' (k a) (k' (out a)) s') :
    Mirrors view out' (m >>= k) (m' >>= k') s := by
  unfold Mirrors at hm ⊢
  rcases h : m s with ⟨r, s'⟩
  rw [h] at hm
  cases r with
  | ok a =>
    rw [bind_of_ok k h, bind_of_ok k' hm]
    exact hk a s' h
  | error e =>
    rw [bind_of_error k h, bind_of_error k' hm]
    rfl

theorem Mirrors.tryCatch {k : ε → ExceptT ε (StateM σ) α} {k' : ε → ExceptT ε (StateM τ) γ}
    (hm : Mirrors view out m m' s) (hk : ∀ e s', m s = (.error e, s') → Mirrors view out (k e) (k' e) s') :
    Mirrors view out (tryCatch m k) (tryCatch m' k') s := by
  unfold Mirrors at hm ⊢
  rcases h : m s with ⟨r, s'⟩
  rw [h] at hm
  cases r with
  | ok a =>
    rw [tryCatch_of_ok k h, tryCatch_of_ok k' hm]
    rfl
  | error e =>
    rw [tryCatch_of_error k h, tryCatch_of_error k' hm]
    exact hk e s' h

end

end

end Fallible
